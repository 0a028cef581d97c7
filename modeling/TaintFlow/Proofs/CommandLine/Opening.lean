import TaintFlow.CommandLine.Opening
import TaintFlow.Proofs.Harness.Definitions

/-!
# What a command opens

The harness that a command opens has chains that its registries accept, each
under its own id, and nothing goes on in its loop.  The main statement is
`opened_of_run`.
-/

namespace TaintFlow

open Harness

theorem Sources.extends_of_add {sources sources' : Sources} {s : Source}
    (added : sources.add s = .ok sources') : sources.Extends sources' := by
  unfold Sources.add at added
  split at added
  · cases added
  · rename_i free
    obtain rfl := Except.ok.inj added
    exact Assoc.extends_put (Bool.not_eq_true _ ▸ free) s

theorem Sinks.extends_of_add {sinks sinks' : Sinks} {s : Sink}
    (added : sinks.add s = .ok sinks') : sinks.Extends sinks' := by
  unfold Sinks.add at added
  split at added
  · cases added
  · rename_i free
    obtain rfl := Except.ok.inj added
    exact Assoc.extends_put (Bool.not_eq_true _ ▸ free) s

variable {h h' : Harness}

/-- A harness has grown, and nothing has happened in its loop. -/
def Harness.GrownAtRest (h h' : Harness) : Prop := h.Grown h' ∧ h'.loop = h.loop

namespace Corpus

theorem grown_of_install (installed : install h = .ok h') : GrownAtRest h h' := by
  obtain ⟨sources, sources_eq, rest⟩ := Except.bind_eq_ok.mp installed
  obtain ⟨sinks, sinks_eq, rest⟩ := Except.bind_eq_ok.mp rest
  have sourcesGrown : h.network.sources.Extends sources :=
    Except.foldlM_induction (.refl _)
      (fun _ _ _ grown added => grown.trans (Sources.extends_of_add added)) sources_eq
  have sinksGrown : h.network.sinks.Extends sinks :=
    Except.foldlM_induction (.refl _)
      (fun _ _ _ grown added => grown.trans (Sinks.extends_of_add added)) sinks_eq
  have registered : h.Grown { h with network := { h.network with sources, sinks } } :=
    .of_network ⟨sourcesGrown, sinksGrown, .refl _⟩ rfl
  refine Except.foldlM_induction (motive := GrownAtRest h) ⟨registered, rfl⟩ ?_ rest
  rintro h₁ c h₂ ⟨grown, loop⟩ defined
  obtain ⟨⟨handle, after⟩, added, rfl⟩ := Except.bind_pure_eq_ok.mp defined
  refine ⟨grown.trans (grown_of_addChain added), ?_⟩
  obtain ⟨_, _, _, rfl⟩ := addChain_eq_ok.mp added
  exact loop

theorem grown_installed (h : Harness) : GrownAtRest h (installed h) := by
  unfold installed
  cases done : install h with
  | error fault => exact ⟨.of_same rfl rfl, rfl⟩
  | ok after => exact grown_of_install done

end Corpus

namespace Opening

theorem loop_addChains (h : Harness) (chains : List Chain) : (h.addChains chains).2.1.loop = h.loop := by
  induction chains generalizing h with
  | nil => rfl
  | cons c rest ih =>
      unfold addChains
      cases added : h.addChain c with
      | error fault => rfl
      | ok pair =>
          obtain ⟨handle, h₁⟩ := pair
          obtain ⟨_, _, _, rfl⟩ := addChain_eq_ok.mp added
          exact ih _

theorem grown_registerCatalog (h : Harness) (folder : Folder) (path : Path) :
    GrownAtRest h (h.registerCatalog folder path).2 := by
  refine ⟨(h.grown_registerCatalog folder path).1, ?_⟩
  unfold registerCatalog
  cases Catalog.load folder path with
  | error failure => rfl
  | ok chains =>
      have loop := loop_addChains h chains
      dsimp only
      split
      · rename_i same
        rw [same] at loop
        exact loop
      · rename_i same
        rw [same] at loop
        exact loop

theorem grown_registerAll {folder : Folder} {paths : List Path}
    (done : registerAll folder h paths = .ok h') : GrownAtRest h h' := by
  induction paths generalizing h with
  | nil =>
      obtain rfl := Except.ok.inj done
      exact ⟨.of_same rfl rfl, rfl⟩
  | cons path rest ih =>
      have first := grown_registerCatalog h folder path
      unfold registerAll at done
      split at done
      · rename_i same
        rw [same] at first
        obtain ⟨grown, loop⟩ := ih done
        exact ⟨first.1.trans grown, loop.trans first.2⟩
      · cases done

/-- A harness that a command opens holds chains that are accepted, each under its own id, and has
nothing in its loop. -/
theorem opened_of_run {folder : Folder} {env : Environment} {config : Option Path}
    {catalogs : List Path} {issued : Nat} {s : Settings}
    (opened : run folder env config catalogs issued = .opened s h) :
    h.Sound ∧ h.loop.isIdle = true := by
  unfold run at opened
  dsimp only at opened
  split at opened
  · rename_i given done
    obtain ⟨s, _, made⟩ := Except.bind_eq_ok.mp done
    obtain ⟨h, registered, same⟩ := Except.bind_pure_eq_ok.mp made
    cases same
    cases opened
    have start : GrownAtRest (empty s.harness)
        (if s.includeCorpus then Corpus.installed (empty s.harness) else empty s.harness) := by
      split
      · exact Corpus.grown_installed _
      · exact ⟨.of_same rfl rfl, rfl⟩
    obtain ⟨grown, loop⟩ := grown_registerAll registered
    have numbered : (empty s.harness).Grown { (if s.includeCorpus then
        Corpus.installed (empty s.harness) else empty s.harness) with issued } :=
      start.1.trans (.of_same rfl rfl)
    refine ⟨(numbered.trans grown).sound ⟨fun _ inside => absurd inside List.not_mem_nil, .nil⟩, ?_⟩
    rw [loop]
    exact congrArg EventLoop.isIdle start.2
  · split at opened
    · cases opened
    · cases opened

/-- Is a harness opened that passes a check? -/
def passes (check : Settings → Harness → Bool) : Opening → Bool
  | opened s h => check s h
  | _ => false

theorem exists_of_passes {check : Settings → Harness → Bool} {o : Opening}
    (passed : o.passes check = true) : ∃ s h, o = .opened s h ∧ check s h = true := by
  cases o with
  | opened s h => exact ⟨s, h, rfl, passed⟩
  | refused reason => cases passed
  | crashed failure => cases passed

end Opening

end TaintFlow
