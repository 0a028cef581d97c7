import TaintFlow.Harness.Storage
import TaintFlow.Proofs.Data.Except
import TaintFlow.Proofs.Store.History
import TaintFlow.Proofs.Store.Slots
import TaintFlow.Proofs.World

/-!
# Calls of the store

What a call of the store gives back is told by the calls before it: by the edits
that they asked for, and not by how the store keeps them.  `Conforms` says this of
one call, with what the call leaves as it was.  The main statement is
`store_tells_history`, for a store that began empty and any row of calls.
-/

namespace TaintFlow

open Store (Known Stands Wiped Lists)

/-- A call of the store of a harness, with its arguments as they are given. -/
inductive StoreCall where
  | put (scope key : Payload) (value : Value) (id : Option String) (writtenAt : Payload)
  | get (scope : Payload) (key : String) (id : Option String)
  | entry (scope : Payload) (key : String) (id : Option String)
  | clear (scope : Payload) (key : String) (id : Option String)
  | clearScope (scope : Payload) (id : Option String)
  | endSession (session : String)
  | release (scope : Payload) (id : Option String)
  | keys (scope : Payload) (id : Option String)
  | partitions (scope : Payload)

/-- What a call of the store gives back. -/
inductive StoreReply where
  | entry (entry : Harness.StoreEntry)
  | value (value : Value)
  | cleared (live : Bool)
  | dropped (count : Nat)
  | released
  | listed (texts : List String)

namespace StoreCall

/-- Does the call only ask for something? -/
def isRead : StoreCall → Bool
  | get .. | entry .. | keys .. | partitions _ => true
  | put .. | clear .. | clearScope .. | endSession _ | release .. => false

/-- The scope of a call as it is given. -/
def scope : StoreCall → Payload
  | put scope .. | get scope .. | entry scope .. | clear scope .. | clearScope scope _
  | release scope _ | keys scope _ | partitions scope => scope
  | endSession _ => .text Scope.session.text

/-- The call with another partition id. -/
def under (id : Option String) : StoreCall → StoreCall
  | put scope key value _ writtenAt => put scope key value id writtenAt
  | get scope key _ => get scope key id
  | entry scope key _ => entry scope key id
  | clear scope key _ => clear scope key id
  | clearScope scope _ => clearScope scope id
  | release scope _ => release scope id
  | keys scope _ => keys scope id
  | endSession session => endSession session
  | partitions scope => partitions scope

/-- The key and the distance that a value is put under; without a distance it is that of the
value. -/
def labelled (key : Payload) (value : Value) (writtenAt : Payload) :
    Except Invalid (String × Int) :=
  Checked.named "StoreEntry" <|
    Checked.both ((Payload.readText key).under (.field "key"))
      ((Payload.readWhole (match writtenAt with
        | .null => .int value.hops
        | given => given)).under (.field "written_at_hop"))

/-- The edit that a call asks for, if its arguments are valid and it asks for one. -/
def edit? : StoreCall → Option Store.Edit
  | put scope key value id writtenAt =>
    match Harness.partitionOf scope id, labelled key value writtenAt with
    | .ok p, .ok (key, hop) => some (.put p key value hop)
    | _, _ => none
  | clear scope key id => (Harness.partitionOf scope id).toOption.map (.clear · key)
  | clearScope scope id => (Harness.partitionOf scope id).toOption.map .clearAll
  | endSession session => (Scope.session.partition (some session)).toOption.map .clearAll
  | release scope id => (Harness.partitionOf scope id).toOption.map .release
  | get .. | entry .. | keys .. | partitions _ => none

/-! ## What a call has to say -/

variable {history : List Store.Edit} {p : Partition} {key : String}

/-- A key has a value, as a history tells. -/
def HasValue (history : List Store.Edit) (p : Partition) (key : String) : Prop :=
  ∃ value writtenAt, Stands history p key value writtenAt

/-- A reply in a partition, or the refusal of what names none. -/
def Placed {α : Type} (place : Except Mishap α) (verdict : α → Except Failure StoreReply → Prop)
    (reply : Except Failure StoreReply) : Prop :=
  match place with
  | .error mishap => reply = .error (.mishap mishap)
  | .ok p => verdict p reply

/-- What a read of a key says: the value that stands there, or that it was wiped, or else that there
is none. -/
structure Reads (history : List Store.Edit) (key : String)
    (found : Partition → Value → Int → StoreReply) (p : Partition)
    (reply : Except Failure StoreReply) : Prop where
  stands : ∀ {value writtenAt}, Stands history p key value writtenAt →
    reply = .ok (found p value writtenAt)
  wiped : Wiped history p key → reply = .error (.ofCause (.cleared p.scope p.id key))
  otherwise : ¬ HasValue history p key → ¬ Wiped history p key →
    reply = .error (.ofCause (.notFound p.scope p.id key))

/-- A clear says whether there was a value. -/
def Clears (history : List Store.Edit) (key : String) (p : Partition)
    (reply : Except Failure StoreReply) : Prop :=
  ∃ live, reply = .ok (.cleared live) ∧ (live = true ↔ HasValue history p key)

/-- A clear of a partition says how many keys had a value. -/
def Drops (history : List Store.Edit) (p : Partition) (reply : Except Failure StoreReply) : Prop :=
  ∃ keys, Lists (HasValue history p) keys ∧ reply = .ok (.dropped keys.length)

/-- What the call says, as the history of the edits before it tells. -/
def Answers (history : List Store.Edit) : StoreCall → Except Failure StoreReply → Prop
  | put scope key value id writtenAt =>
    Placed (Harness.partitionOf scope id) fun p reply =>
      match labelled key value writtenAt with
      | .error what => reply = .error (.invalid what)
      | .ok (key, hop) => reply = .ok (.entry ⟨p, key, value, hop⟩)
  | get scope key id =>
    Placed (Harness.partitionOf scope id) (Reads history key fun _ value _ => .value value)
  | entry scope key id =>
    Placed (Harness.partitionOf scope id)
      (Reads history key fun p value writtenAt => .entry ⟨p, key, value, writtenAt⟩)
  | clear scope key id => Placed (Harness.partitionOf scope id) (Clears history key)
  | clearScope scope id => Placed (Harness.partitionOf scope id) (Drops history)
  | endSession session => Placed (Scope.session.partition (some session)) (Drops history)
  | release scope id => Placed (Harness.partitionOf scope id) fun _ reply => reply = .ok .released
  | keys scope id =>
    Placed (Harness.partitionOf scope id) fun p reply =>
      ∃ keys, Lists (HasValue history p) keys ∧ reply = .ok (.listed keys)
  | partitions scope =>
    Placed (Harness.named Scope "StoreScope" scope) fun scope reply =>
      ∃ ids, Lists (fun id => ∃ key, Known history ⟨scope, id⟩ key) ids ∧
        reply = .ok (.listed ids)

end StoreCall

namespace Harness

open StoreCall

/-- What a call gives back that may change the harness, and the harness after it. -/
def changed {α : Type} (h : Harness) (reply : α → StoreReply) :
    Except Failure (α × Harness) → Except Failure StoreReply × Harness
  | .ok (a, after) => (.ok (reply a), after)
  | .error failure => (.error failure, h)

/-- Carry out a call of the store. -/
def answer (h : Harness) : StoreCall → Except Failure StoreReply × Harness
  | .put scope key value id writtenAt => h.changed .entry (h.put scope key value id writtenAt)
  | .get scope key id => ((h.entry scope key id).map fun found => .value found.value, h)
  | .entry scope key id => ((h.entry scope key id).map .entry, h)
  | .clear scope key id => h.changed .cleared ((h.clear scope key id).mapError .mishap)
  | .clearScope scope id => h.changed .dropped ((h.clearScope scope id).mapError .mishap)
  | .endSession session => h.changed .dropped ((h.endSession session).mapError .mishap)
  | .release scope id =>
    h.changed (fun _ => .released)
      (((h.release scope id).map fun after => ((), after)).mapError .mishap)
  | .keys scope id => (((h.keys scope id).map .listed).mapError .mishap, h)
  | .partitions scope => (((h.partitions scope).map .listed).mapError .mishap, h)

/-- The harness after several calls. -/
def after (h : Harness) (calls : List StoreCall) : Harness :=
  calls.foldl (fun h call => (h.answer call).2) h

/-- What a call comes to after a history of edits: it says what the history tells, makes the edit
that it asks for, and changes nothing if it only asks or is refused. -/
structure Conforms (history : List Store.Edit) (h : Harness) (call : StoreCall) : Prop where
  answers : call.Answers history (h.answer call).1
  store : (h.answer call).2.world.store = h.world.store.applyAll call.edit?.toList
  still : call.isRead = true ∨ (∃ failure, (h.answer call).1 = .error failure) →
    (h.answer call).2 = h

variable {h : Harness} {history : List Store.Edit} {call : StoreCall} {p : Partition}
  {key : String}

/-! ## One call -/

/-- The store of a harness is what a history of edits tells. -/
def Recalls (h : Harness) (history : List Store.Edit) : Prop :=
  h.world.store = ({} : Store).applyAll history

theorem Recalls.tells (recalls : h.Recalls history) (p : Partition) (key : String) :
    Store.Tells history p key (h.world.store.slot? p key) := by
  rw [recalls]
  exact Store.slot?_history history p key

theorem Recalls.orderly (recalls : h.Recalls history) : h.world.store.Orderly := by
  rw [recalls]
  exact Store.orderly_empty.applyAll history

theorem Recalls.isLive_iff (recalls : h.Recalls history) (p : Partition) (key : String) :
    h.world.store.isLive p key = true ↔ HasValue history p key := by
  have tells := recalls.tells p key
  unfold HasValue Store.isLive
  simp only [← tells.live]
  cases h.world.store.slot? p key with
  | none => simp
  | some slot =>
      cases slot with
      | live value writtenAt => simp [Slot.isLive]
      | cleared => simp [Slot.isLive]

theorem Recalls.lists_keys (recalls : h.Recalls history) (p : Partition) :
    Lists (HasValue history p) (h.world.store.keys p) := by
  obtain ⟨sorted, members⟩ := Store.lists_keys recalls.orderly p
  exact ⟨sorted, fun key => (members key).trans (recalls.isLive_iff p key)⟩

theorem Recalls.lists_partitionIds (recalls : h.Recalls history) (scope : Scope) :
    Lists (fun id => ∃ key, Known history ⟨scope, id⟩ key)
      (h.world.store.partitionIds scope) := by
  obtain ⟨sorted, members⟩ := Store.lists_partitionIds recalls.orderly scope
  refine ⟨sorted, fun id => (members id).trans (exists_congr fun key => ?_)⟩
  exact (recalls.tells ⟨scope, id⟩ key).known

/-- A call that leaves the harness alone, and asks for no edit. -/
theorem Conforms.of_still {reply : Except Failure StoreReply} (came : h.answer call = (reply, h))
    (noEdit : call.edit? = none) (answers : call.Answers history reply) :
    Conforms history h call where
  answers := by rwa [came]
  store := by simp [came, noEdit, Store.applyAll]
  still := fun _ => congrArg Prod.snd came

/-- A call that makes the edit that it asks for. -/
theorem Conforms.of_edited {reply : StoreReply} {after : Harness} {e : Store.Edit}
    (came : h.answer call = (.ok reply, after)) (edit : call.edit? = some e)
    (edited : after.world.store = h.world.store.apply e) (notRead : call.isRead = false)
    (answers : call.Answers history (.ok reply)) : Conforms history h call where
  answers := by rwa [came]
  store := by simp [came, edit, edited, Store.applyAll]
  still := by simp [came, notRead]

/-- A call that is refused for its partition, or makes one edit there. -/
theorem Conforms.of_placed (place : Except Mishap Partition) (reply : Partition → StoreReply)
    (after : Partition → World) (e : Partition → Store.Edit)
    {verdict : Partition → Except Failure StoreReply → Prop}
    (came : h.answer call = match place with
      | .error mishap => (.error (.mishap mishap), h)
      | .ok p => (.ok (reply p), { h with world := after p }))
    (edit : call.edit? = place.toOption.map e)
    (edited : ∀ p, (after p).store = h.world.store.apply (e p)) (notRead : call.isRead = false)
    (asked : call.Answers history = Placed place verdict)
    (right : ∀ p, verdict p (.ok (reply p))) : Conforms history h call := by
  cases place with
  | error mishap =>
      refine .of_still came edit ?_
      rw [asked]
      rfl
  | ok p =>
      refine .of_edited came edit (edited p) notRead ?_
      rw [asked]
      exact right p

/-- A put conforms to every history. -/
theorem conforms_put (history : List Store.Edit) (h : Harness) (scope given : Payload)
    (value : Value) (id : Option String) (writtenAt : Payload) :
    Conforms history h (.put scope given value id writtenAt) := by
  have came : h.answer (.put scope given value id writtenAt) =
      h.changed .entry (h.put scope given value id writtenAt) := rfl
  have put_eq : h.put scope given value id writtenAt = (do
      let p ← (partitionOf scope id).mapError .mishap
      let both ← (labelled given value writtenAt).mapError .invalid
      return (⟨p, both.1, value, both.2⟩,
        { h with world := h.world.edit {} (.put p both.1 value both.2) })) :=
    rfl
  rw [put_eq] at came
  cases place : partitionOf scope id with
  | error mishap =>
      rw [place] at came
      refine .of_still came ?_ ?_
      · simp [StoreCall.edit?, place]
      · simp [Answers, Placed, place]
  | ok p =>
      cases label : labelled given value writtenAt with
      | error what =>
          rw [place, label] at came
          refine .of_still came ?_ ?_
          · simp [StoreCall.edit?, place, label]
          · simp [Answers, Placed, place, label]
      | ok both =>
          rw [place, label] at came
          refine .of_edited came (e := .put p both.1 value both.2) ?_
            (World.edit_store _ _ _) rfl ?_
          · simp [StoreCall.edit?, place, label]
          · simp [Answers, Placed, place, label]

/-- A read of a key says what stands there. -/
theorem Recalls.reads (recalls : h.Recalls history) (p : Partition) (key : String)
    (found : Partition → Value → Int → StoreReply) :
    Reads history key found p (match h.world.store.slot? p key with
      | some (.live value writtenAt) => .ok (found p value writtenAt)
      | some .cleared => .error (.ofCause (.cleared p.scope p.id key))
      | none => .error (.ofCause (.notFound p.scope p.id key))) := by
  have tells := recalls.tells p key
  refine ⟨fun stands => ?_, fun wiped => ?_, fun unread unwiped => ?_⟩
  · rw [(tells.live _ _).mpr stands]
  · rw [tells.cleared.mpr wiped]
  · cases at_ : h.world.store.slot? p key with
    | none => rfl
    | some slot =>
        cases slot with
        | live value writtenAt => exact absurd ⟨_, _, (tells.live _ _).mp at_⟩ unread
        | cleared => exact absurd (tells.cleared.mp at_) unwiped

/-- A read of the entry at a key conforms, whatever is told of the entry. -/
theorem Recalls.entry_reads (recalls : h.Recalls history) (scope : Payload) (key : String)
    (id : Option String) (shown : StoreEntry → StoreReply) :
    Placed (partitionOf scope id)
      (Reads history key fun p value writtenAt => shown ⟨p, key, value, writtenAt⟩)
      ((h.entry scope key id).map shown) := by
  unfold Harness.entry
  cases partitionOf scope id with
  | error mishap => rfl
  | ok p =>
      have reads := recalls.reads p key fun p value writtenAt => shown ⟨p, key, value, writtenAt⟩
      show Reads history key _ p (Except.map shown (match h.world.store.slot? p key with
        | some (.live value writtenAt) => .ok ⟨p, key, value, writtenAt⟩
        | some .cleared => .error (.ofCause (.cleared p.scope p.id key))
        | none => .error (.ofCause (.notFound p.scope p.id key))))
      cases at_ : h.world.store.slot? p key with
      | none =>
          rw [at_] at reads
          exact reads
      | some slot =>
          rw [at_] at reads
          cases slot with
          | live value writtenAt => exact reads
          | cleared => exact reads

/-- A call that is refused for its place, or only asks there. -/
theorem Conforms.of_asked {α : Type} (place : Except Mishap α) (reply : α → StoreReply)
    {verdict : α → Except Failure StoreReply → Prop}
    (came : h.answer call = match place with
      | .error mishap => (.error (.mishap mishap), h)
      | .ok p => (.ok (reply p), h))
    (noEdit : call.edit? = none) (asked : call.Answers history = Placed place verdict)
    (right : ∀ p, verdict p (.ok (reply p))) : Conforms history h call := by
  cases place with
  | error mishap =>
      refine .of_still came noEdit ?_
      rw [asked]
      rfl
  | ok p =>
      refine .of_still came noEdit ?_
      rw [asked]
      exact right p

/-- As many keys are dropped as have a value. -/
theorem Recalls.drops (recalls : h.Recalls history) (p : Partition) :
    Drops history p (.ok (.dropped (h.world.store.liveCount p))) :=
  ⟨_, recalls.lists_keys p, by rw [Store.length_keys]⟩

/-- Every call conforms to the history of the edits before it. -/
theorem Recalls.conforms (recalls : h.Recalls history) (call : StoreCall) :
    Conforms history h call := by
  cases call with
  | put scope key value id writtenAt => exact conforms_put history h scope key value id writtenAt
  | get scope key id =>
      exact .of_still rfl rfl (recalls.entry_reads scope key id fun found => .value found.value)
  | entry scope key id => exact .of_still rfl rfl (recalls.entry_reads scope key id .entry)
  | clear scope key id =>
      refine .of_placed (partitionOf scope id) (fun p => .cleared (h.world.store.isLive p key))
        (fun p => h.world.edit {} (.clear p key)) (.clear · key) ?_ rfl
        (fun p => World.edit_store h.world {} _) rfl rfl fun p => ⟨_, rfl, recalls.isLive_iff p key⟩
      show h.changed .cleared ((h.clear scope key id).mapError .mishap) = _
      unfold Harness.clear
      cases partitionOf scope id with
      | error mishap => rfl
      | ok p => rfl
  | clearScope scope id =>
      refine .of_placed (partitionOf scope id) (fun p => .dropped (h.world.store.liveCount p))
        (fun p => h.world.edit {} (.clearAll p)) .clearAll ?_ rfl
        (fun p => World.edit_store h.world {} _) rfl rfl recalls.drops
      show h.changed .dropped ((h.clearScope scope id).mapError .mishap) = _
      unfold Harness.clearScope
      cases partitionOf scope id with
      | error mishap => rfl
      | ok p => rfl
  | endSession session =>
      refine .of_placed (Scope.session.partition (some session))
        (fun p => .dropped (h.world.store.liveCount p))
        (fun p => (h.world.edit {} (.clearAll p)).say {}
          (.sessionEnded session (h.world.store.liveCount p))) .clearAll ?_ rfl
        (fun p => World.edit_store h.world {} (.clearAll p)) rfl rfl recalls.drops
      show h.changed .dropped ((h.endSession session).mapError .mishap) = _
      unfold Harness.endSession
      cases Scope.session.partition (some session) with
      | error mishap => rfl
      | ok p => rfl
  | release scope id =>
      refine .of_placed (partitionOf scope id) (fun _ => .released)
        (fun p => h.world.edit {} (.release p)) .release ?_ rfl
        (fun p => World.edit_store h.world {} _) rfl rfl fun p => rfl
      show h.changed _ (((h.release scope id).map fun after => ((), after)).mapError .mishap) = _
      unfold Harness.release
      cases partitionOf scope id with
      | error mishap => rfl
      | ok p => rfl
  | keys scope id =>
      refine .of_asked (partitionOf scope id) (fun p => .listed (h.world.store.keys p))
        ?_ rfl rfl fun p => ⟨_, recalls.lists_keys p, rfl⟩
      show (((h.keys scope id).map StoreReply.listed).mapError Failure.mishap, h) = _
      unfold Harness.keys
      cases partitionOf scope id with
      | error mishap => rfl
      | ok p => rfl
  | partitions scope =>
      refine .of_asked (named Scope "StoreScope" scope)
        (fun scope => .listed (h.world.store.partitionIds scope))
        ?_ rfl rfl fun scope => ⟨_, recalls.lists_partitionIds scope, rfl⟩
      show (((h.partitions scope).map StoreReply.listed).mapError Failure.mishap, h) = _
      unfold Harness.partitions
      cases named Scope "StoreScope" scope with
      | error mishap => rfl
      | ok scope => rfl

/-! ## A row of calls -/

/-- The edits that calls ask for. -/
def editsOf (calls : List StoreCall) : List Store.Edit := calls.filterMap StoreCall.edit?

/-- A call adds to the history the edit that it asks for. -/
theorem Recalls.step (recalls : h.Recalls history) (call : StoreCall) :
    (h.answer call).2.Recalls (history ++ call.edit?.toList) := by
  unfold Recalls
  rw [(recalls.conforms call).store, recalls, Store.applyAll_append]

/-- After several calls the store is what the edits tell that they asked for. -/
theorem Recalls.after (recalls : h.Recalls history) (calls : List StoreCall) :
    (h.after calls).Recalls (history ++ editsOf calls) := by
  induction calls generalizing h history with
  | nil => simpa [Harness.after, editsOf] using recalls
  | cons call rest ih =>
      have first := ih (recalls.step call)
      have split : editsOf (call :: rest) = call.edit?.toList ++ editsOf rest := by
        unfold editsOf
        cases edit : call.edit? with
        | none => simp [edit]
        | some e => simp [edit]
      rwa [List.append_assoc, ← split] at first

/-- The process has one partition, whatever id it is given. -/
theorem partitionOf_process (scope : Payload)
    (process : named Scope "StoreScope" scope = .ok .process) (id other : Option String) :
    partitionOf scope id = partitionOf scope other := by
  unfold partitionOf
  rw [process]
  rfl

/-- In the process scope a call comes to the same whatever id it is given. -/
theorem answer_under (h : Harness) (call : StoreCall)
    (process : named Scope "StoreScope" call.scope = .ok .process) (id : Option String) :
    h.answer (call.under id) = h.answer call := by
  cases call with
  | put scope key value other writtenAt =>
      simp only [StoreCall.under, answer, Harness.put, partitionOf_process scope process id other]
  | get scope key other =>
      simp only [StoreCall.under, answer, Harness.entry, partitionOf_process scope process id other]
  | entry scope key other =>
      simp only [StoreCall.under, answer, Harness.entry, partitionOf_process scope process id other]
  | clear scope key other =>
      simp only [StoreCall.under, answer, Harness.clear, partitionOf_process scope process id other]
  | clearScope scope other =>
      simp only [StoreCall.under, answer, Harness.clearScope,
        partitionOf_process scope process id other]
  | release scope other =>
      simp only [StoreCall.under, answer, Harness.release,
        partitionOf_process scope process id other]
  | keys scope other =>
      simp only [StoreCall.under, answer, Harness.keys, partitionOf_process scope process id other]
  | endSession session => rfl
  | partitions scope => rfl

/-- **The store tells its history.**  After any calls, a call says what the edits tell that were
asked for; one that only asks, or is refused, changes nothing; and the process scope heeds no id. -/
theorem store_tells_history {h : Harness} (fresh : h.world.store = {}) (calls : List StoreCall)
    (call : StoreCall) :
    let now := h.after calls
    call.Answers (editsOf calls) (now.answer call).1 ∧
    (call.isRead = true ∨ (∃ failure, (now.answer call).1 = .error failure) →
      (now.answer call).2 = now) ∧
    (named Scope "StoreScope" call.scope = .ok .process →
      ∀ id, now.answer (call.under id) = now.answer call) := by
  have recalls : (h.after calls).Recalls (editsOf calls) := by
    have started : h.Recalls [] := fresh
    exact started.after calls
  obtain ⟨answers, _, still⟩ := recalls.conforms call
  exact ⟨answers, still, fun process id => answer_under (h.after calls) call process id⟩

/-- A key that was put and cleared is told from one that was never put. -/
theorem cleared_told_from_missing :
    let calls : List StoreCall :=
      [.put (.text "session") (.text "note") {} (some "s") .null,
        .clear (.text "session") "note" (some "s")]
    ((empty.after calls).answer (.get (.text "session") "note" (some "s"))).1 =
        .error (.ofCause (.cleared .session "s" "note")) ∧
      ((empty.after calls).answer (.get (.text "session") "other" (some "s"))).1 =
        .error (.ofCause (.notFound .session "s" "other")) := by
  intro calls
  have history : editsOf calls =
    [.put ⟨.session, "s"⟩ "note" {} 0, .clear ⟨.session, "s"⟩ "note"] := rfl
  have fresh : (empty : Harness).world.store = {} := rfl
  have reads (key : String) : Reads (editsOf calls) key (fun _ value _ => .value value)
      ⟨.session, "s"⟩ ((empty.after calls).answer (.get (.text "session") key (some "s"))).1 :=
    (store_tells_history fresh calls (.get (.text "session") key (some "s"))).1
  constructor
  · refine (reads "note").wiped ?_
    rw [history]
    exact ⟨_, _, [], rfl, ⟨.inl rfl, [], _, [], rfl, ⟨_, _, rfl⟩, nofun⟩, nofun⟩
  · have tells := Store.slot?_history (editsOf calls) ⟨.session, "s"⟩ "other"
    have absent : (({} : Store).applyAll (editsOf calls)).slot? ⟨.session, "s"⟩ "other" = none := by
      rw [history]
      decide
    rw [absent] at tells
    refine (reads "other").otherwise ?_ ?_
    · rintro ⟨value, writtenAt, stands⟩
      exact nomatch (tells.live value writtenAt).mpr stands
    · intro wiped
      exact nomatch tells.cleared.mpr wiped

end Harness

end TaintFlow
