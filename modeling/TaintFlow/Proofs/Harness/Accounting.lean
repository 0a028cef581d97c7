import TaintFlow.Proofs.Harness.Attempt
import TaintFlow.Proofs.Harness.Definitions
import TaintFlow.Proofs.Invocations.Together

/-!
# What a harness counts of its runs

A harness runs its chains one after the other, or several at once, and it does other
things between.  As long as all runs come back, what it has counted of them is in
their results: the main statement is `results_accounted`.
-/

namespace TaintFlow.Harness

open Run

variable {h h' : Harness} {id : String} {scopes : RunScopes} {context : Payload}
  {timeout : Option Timeout} {session : Option String} {results : List RunResult}

/-! ## Runs that are made -/

/-- A run that can start is one of a chain that is defined. -/
theorem newRun_fresh {r : Run} (made : h.newRun id scopes context timeout = .ok (r, h')) :
    ∃ c, h.chains.find? id = some c ∧ h' = h.issuing ∧
      r = fresh c scopes (h.freshId 32).1 context timeout := by
  rw [newRun_eq] at made
  split at made
  · cases made
  · rename_i c found
    split at made
    · cases made
    · obtain ⟨rfl, rfl⟩ := Prod.mk.inj (Except.ok.inj made)
      exact ⟨c, getChain_eq_ok.mp found, rfl, rfl⟩

/-- The runs that can start are runs of chains that are defined, and the harness makes up ids for
them and does nothing else. -/
theorem newRuns_fresh (h : Harness) (session : Option String) (context : Payload)
    (timeout : Option Timeout) (ids : List String) :
    (∃ issued, (h.newRuns session context timeout ids).2 = { h with issued }) ∧
      ∀ r, .ok r ∈ (h.newRuns session context timeout ids).1 → ∃ id c scopes runId,
        h.chains.find? id = some c ∧ r = fresh c scopes runId context timeout := by
  induction ids generalizing h with
  | nil => exact ⟨⟨h.issued, rfl⟩, fun _ inside => absurd inside List.not_mem_nil⟩
  | cons id rest ih =>
      obtain ⟨execution, named⟩ : ∃ execution, h.freshId 32 = (execution, h.issuing) := ⟨_, rfl⟩
      unfold newRuns
      rw [named]
      dsimp only
      split
      · rename_i first after made
        obtain ⟨c, found, rfl, rfl⟩ := newRun_fresh made
        obtain ⟨⟨issued, same⟩, others⟩ := ih h.issuing.issuing
        refine ⟨⟨issued, same⟩, fun r inside => ?_⟩
        rcases List.mem_cons.mp inside with new | inside
        · obtain rfl := Except.ok.inj new
          exact ⟨id, c, _, _, found, rfl⟩
        · exact others r inside
      · obtain ⟨⟨issued, same⟩, others⟩ := ih h.issuing
        refine ⟨⟨issued, same⟩, fun r inside => ?_⟩
        rcases List.mem_cons.mp inside with new | inside
        · cases new
        · exact others r inside

theorem Sound.valid (sound : h.Sound) {c : Chain} (found : h.chains.find? id = some c) :
    c.validate h.network = .ok () :=
  (sound.holds (id, c) ((Assoc.mem_iff_find? sound.once).mpr found)).valid

/-! ## Runs that have come back -/

/-- A harness has run chains, one by one or several at once, and has done what is not counted
between, and all runs have come back with these results. -/
inductive Ran (h : Harness) : List RunResult → Harness → Prop
  | nothing : Ran h [] h
  /-- A chain is run. -/
  | one {results : List RunResult} {h₁ h₂ : Harness} {id : String} {scopes : RunScopes}
      {context : Payload} {timeout : Option Timeout} {result : RunResult}
      (before : Ran h results h₁)
      (ran : h₁.runChain id scopes context timeout = .returned h₂ result) :
      Ran h (results ++ [result]) h₂
  /-- Several chains are run at once. -/
  | several {results more : List RunResult} {h₁ h₂ : Harness} {ids : List String}
      {session : Option String} {context : Payload} {timeout : Option Timeout}
      (before : Ran h results h₁)
      (ran : h₁.runMany ids session context timeout = (.ok more, h₂)) :
      Ran h (results ++ more) h₂
  /-- Something else is done with the world. -/
  | rested {results : List RunResult} {h₁ : Harness} {world : World} {issued : Nat}
      (before : Ran h results h₁)
      (uncounted : ∀ invocation, world.counted invocation = h₁.world.counted invocation) :
      Ran h results { h₁ with world, issued }

/-- What a harness has run is a concert. -/
structure Concerted (h : Harness) (results : List RunResult) (h' : Harness) : Prop where
  network : h'.network = h.network
  chains : h'.chains = h.chains
  quiet : h'.loop.Quiet
  concert : ∃ asked runs, Concert h.network h.world asked h'.world runs ∧
    (∀ r ∈ runs, r.result.finished = true) ∧ runs.map Run.result = results

theorem Concerted.one {h₁ h₂ : Harness} {result : RunResult} (sound : h.Sound)
    (before : Concerted h results h₁)
    (ran : h₁.runChain id scopes context timeout = .returned h₂ result) :
    Concerted h (results ++ [result]) h₂ := by
  obtain ⟨network, chains, quiet, asked, runs, concert, finished, rfl⟩ := before
  rw [runChain_eq quiet.idle] at ran
  split at ran
  · cases ran
  · rename_i c found
    split at ran
    · cases ran
    · have valid : c.validate h.network = .ok () := sound.valid (chains ▸ getChain_eq_ok.mp found)
      unfold concluded at ran
      split at ran
      · rename_i world r returned
        obtain ⟨rfl, rfl⟩ := Attempt.returned.inj ran
        rw [network] at returned
        obtain ⟨closed, more, concert⟩ := concert.run valid returned
        refine ⟨network, chains, quiet, _, _, concert, ?_, List.map_append⟩
        exact List.forall_mem_append.mpr ⟨finished, List.forall_mem_singleton.mpr closed⟩
      · cases ran
      · cases ran

theorem Concerted.several {h₁ h₂ : Harness} {more : List RunResult} {ids : List String}
    (sound : h.Sound) (before : Concerted h results h₁)
    (ran : h₁.runMany ids session context timeout = (.ok more, h₂)) :
    Concerted h (results ++ more) h₂ := by
  obtain ⟨network, chains, quiet, asked, runs, concert, finished, rfl⟩ := before
  obtain ⟨⟨issued, same⟩, made⟩ := newRuns_fresh h₁ session context timeout ids
  unfold runMany at ran
  dsimp only at ran
  rw [same] at ran
  obtain ⟨came, world, loop, together⟩ : ∃ came world loop, h₁.loop.runTogether h.network h₁.world
      (h₁.newRuns session context timeout ids).1 = (came, world, loop) := ⟨_, _, _, rfl⟩
  rw [network, together] at ran
  obtain ⟨rfl, rfl⟩ := Prod.mk.inj ran
  obtain ⟨quiet, others, after, concert, closed, rfl⟩ :=
    EventLoop.runTogether_performs quiet concert (fun r inside => by
      obtain ⟨id, c, scopes, runId, found, rfl⟩ := made r inside
      exact ⟨c, scopes, runId, context, timeout, sound.valid (chains ▸ found), rfl⟩) together
  refine ⟨rfl, chains, quiet, _, _, concert, ?_, List.map_append⟩
  exact List.forall_mem_append.mpr ⟨finished, closed⟩

theorem Ran.concerted (sound : h.Sound) (quiet : h.loop.Quiet) (ran : h.Ran results h') :
    Concerted h results h' := by
  induction ran with
  | nothing => exact ⟨rfl, rfl, quiet, [], [], .begun, List.forall_mem_nil _, rfl⟩
  | one before ran ih => exact ih.one sound ran
  | several before ran ih => exact ih.several sound ran
  | rested before uncounted ih =>
      obtain ⟨network, chains, quiet, asked, runs, concert, rest⟩ := ih
      exact ⟨network, chains, quiet, asked, runs, concert.rested uncounted, rest⟩

/-- **A harness counts what the results of its runs show.**  Its chains are accepted by its
registries, and its operators raise no fault of the library's own.  However it has run them, if all
runs have come back it has counted each of their results, each value that a sink has taken or rejected
in them, and beside that only sources that have been asked. -/
theorem results_accounted (blameless : h.network.engine.Blameless) (sound : h.Sound)
    (quiet : h.loop.Quiet) (ran : h.Ran results h') :
    ∃ asked : List String,
      h.world.Counts h'.world (asked.map .asked ++ results.flatMap RunResult.invocations) := by
  obtain ⟨asked, runs, concert, finished, rfl⟩ := (ran.concerted sound quiet).concert
  exact ⟨asked, concert.counts_results blameless finished⟩

end TaintFlow.Harness
