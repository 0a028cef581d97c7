import Mathlib.Data.List.Forall2

/-!
# Computations that may fail

A computation of several parts succeeds if every part does.  These statements
take one apart without opening what its parts are.
-/

namespace TaintFlow.Except

variable {ε α β γ : Type}

/-- Two parts succeed if the first does and the second does with what it gives. -/
theorem bind_eq_ok {first : Except ε α} {second : α → Except ε β} {b : β} :
    (first >>= second) = .ok b ↔ ∃ a, first = .ok a ∧ second a = .ok b := by
  cases first with
  | error e => exact ⟨nofun, fun ⟨_, other, _⟩ => nomatch other⟩
  | ok a =>
      constructor
      · intro both
        exact ⟨a, rfl, both⟩
      · rintro ⟨_, same, both⟩
        obtain rfl := Except.ok.inj same
        exact both

/-- Two parts fail if the first does, or if the second does with what the first gives. -/
theorem bind_eq_error {first : Except ε α} {second : α → Except ε β} {e : ε} :
    (first >>= second) = .error e ↔
      first = .error e ∨ ∃ a, first = .ok a ∧ second a = .error e := by
  cases first with
  | error other =>
      constructor
      · exact fun failed => .inl (congrArg Except.error (Except.error.inj failed))
      · rintro (failed | ⟨_, same, _⟩)
        · exact congrArg Except.error (Except.error.inj failed)
        · cases same
  | ok a =>
      constructor
      · exact fun failed => .inr ⟨a, rfl, failed⟩
      · rintro (failed | ⟨_, same, failed⟩)
        · cases failed
        · obtain rfl := Except.ok.inj same
          exact failed

theorem pure_eq_ok {a b : α} : (pure a : Except ε α) = .ok b ↔ b = a :=
  ⟨fun same => (Except.ok.inj same).symm, fun same => same ▸ rfl⟩

/-- A check and what comes after it. -/
theorem check_eq_ok {check : Except ε Unit} {rest : Except ε β} {b : β} :
    (check >>= fun _ => rest) = .ok b ↔ check = .ok () ∧ rest = .ok b := by
  rw [bind_eq_ok]
  exact ⟨fun ⟨_, passed, after⟩ => ⟨passed, after⟩, fun ⟨passed, after⟩ => ⟨_, passed, after⟩⟩

theorem throw_eq_ok {e : ε} {a : α} : (throw e : Except ε α) = .ok a ↔ False := ⟨nofun, nofun⟩

theorem throw_bind_eq_ok {e : ε} {rest : α → Except ε β} {b : β} :
    ((throw e : Except ε α) >>= rest) = .ok b ↔ False := ⟨nofun, nofun⟩

theorem mapError_eq_ok {ε' : Type} {f : ε → ε'} {given : Except ε α} {a : α} :
    given.mapError f = .ok a ↔ given = .ok a := by
  cases given with
  | error e => exact ⟨nofun, nofun⟩
  | ok b => exact ⟨fun same => Except.ok.inj same ▸ rfl, fun same => Except.ok.inj same ▸ rfl⟩

theorem mapError_eq_error {ε' : Type} {f : ε → ε'} {given : Except ε α} {e : ε'} :
    given.mapError f = .error e ↔ ∃ cause, given = .error cause ∧ f cause = e := by
  cases given with
  | error cause =>
      constructor
      · exact fun same => ⟨cause, rfl, Except.error.inj same⟩
      · rintro ⟨_, same, rfl⟩
        rw [Except.error.inj same]
        rfl
  | ok a => exact ⟨nofun, fun ⟨_, same, _⟩ => nomatch same⟩

theorem map_eq_ok {f : α → β} {given : Except ε α} {b : β} :
    given.map f = .ok b ↔ ∃ a, given = .ok a ∧ f a = b := by
  cases given with
  | error e => exact ⟨nofun, fun ⟨_, other, _⟩ => nomatch other⟩
  | ok a =>
      constructor
      · exact fun same => ⟨a, rfl, Except.ok.inj same⟩
      · rintro ⟨_, same, rfl⟩
        rw [Except.ok.inj same]
        rfl

/-- What is made of a part is there exactly if the part is. -/
theorem exists_map_eq_ok {f : α → β} {given : Except ε α} :
    (∃ b, given.map f = .ok b) ↔ ∃ a, given = .ok a :=
  ⟨fun ⟨_, made⟩ => (map_eq_ok.mp made).imp fun _ both => both.1,
    fun ⟨_, there⟩ => ⟨_, map_eq_ok.mpr ⟨_, there, rfl⟩⟩⟩

/-- A part and what is made of it. -/
theorem bind_pure_eq_ok {f : α → β} {given : Except ε α} {b : β} :
    (do return f (← given)) = Except.ok b ↔ ∃ a, given = .ok a ∧ f a = b := by
  rw [bind_eq_ok]
  exact exists_congr fun a => and_congr_right fun _ => pure_eq_ok.trans eq_comm

theorem exists_bind_pure_eq_ok {f : α → β} {given : Except ε α} :
    (∃ b, (do return f (← given)) = Except.ok b) ↔ ∃ a, given = .ok a :=
  ⟨fun ⟨_, made⟩ => (bind_pure_eq_ok.mp made).imp fun _ both => both.1,
    fun ⟨_, there⟩ => ⟨_, bind_pure_eq_ok.mpr ⟨_, there, rfl⟩⟩⟩

theorem both_eq_ok {first : Except ε α} {second : Except ε β} {f : α → β → γ} {c : γ} :
    (do return f (← first) (← second)) = Except.ok c ↔
      ∃ a b, first = .ok a ∧ second = .ok b ∧ f a b = c := by
  rw [bind_eq_ok]
  refine exists_congr fun a => ?_
  constructor
  · rintro ⟨one, rest⟩
    obtain ⟨b, other, made⟩ := bind_eq_ok.mp rest
    exact ⟨b, one, other, (pure_eq_ok.mp made).symm⟩
  · rintro ⟨b, one, other, rfl⟩
    exact ⟨one, bind_eq_ok.mpr ⟨b, other, rfl⟩⟩

/-- What is made of two parts is there exactly if both are. -/
theorem exists_both_eq_ok {first : Except ε α} {second : Except ε β} {f : α → β → γ} :
    (∃ c, (do return f (← first) (← second)) = Except.ok c) ↔
      (∃ a, first = .ok a) ∧ ∃ b, second = .ok b := by
  constructor
  · rintro ⟨c, made⟩
    obtain ⟨a, b, one, other, _⟩ := both_eq_ok.mp made
    exact ⟨⟨a, one⟩, b, other⟩
  · rintro ⟨⟨a, one⟩, b, other⟩
    exact ⟨f a b, both_eq_ok.mpr ⟨a, b, one, other, rfl⟩⟩

theorem toOption_eq_some {given : Except ε α} {a : α} : given.toOption = some a ↔ given = .ok a := by
  cases given with
  | error e => exact ⟨nofun, nofun⟩
  | ok b =>
      constructor
      · rintro ⟨⟩
        rfl
      · rintro ⟨⟩
        rfl

/-- What is thrown away is there all the same. -/
theorem discard_eq_ok {given : Except ε α} : discard given = .ok () ↔ ∃ a, given = .ok a := by
  cases given with
  | error e => exact ⟨nofun, nofun⟩
  | ok a => exact ⟨fun _ => ⟨a, rfl⟩, fun _ => rfl⟩

theorem mapM_id_eq_ok {given : List (Except ε α)} {found : List α}
    (all : given.mapM id = .ok found) : given = found.map .ok := by
  induction given generalizing found with
  | nil =>
      obtain rfl := Except.ok.inj all
      rfl
  | cons first rest ih =>
      rw [List.mapM_cons] at all
      obtain ⟨a, one, others⟩ := bind_eq_ok.mp all
      obtain ⟨tail, same, last⟩ := bind_eq_ok.mp others
      obtain rfl := pure_eq_ok.mp last
      rw [List.map_cons, ← ih same, ← one]
      rfl

/-- What holds at first and is kept by every step holds in the end. -/
theorem foldlM_induction {motive : α → Prop} {step : α → β → Except ε α} {given : List β} {a a' : α}
    (first : motive a) (keeps : ∀ a b a', motive a → step a b = .ok a' → motive a')
    (all : given.foldlM step a = .ok a') : motive a' := by
  induction given generalizing a with
  | nil =>
      obtain rfl := pure_eq_ok.mp all
      exact first
  | cons b rest ih =>
      obtain ⟨next, one, others⟩ := bind_eq_ok.mp (List.foldlM_cons.symm.trans all)
      exact ih (keeps a b next first one) others

/-- Several parts succeed if each does. -/
theorem mapM_eq_ok {f : α → Except ε β} {given : List α} {found : List β} :
    given.mapM f = .ok found ↔ List.Forall₂ (fun a b => f a = .ok b) given found := by
  induction given generalizing found with
  | nil =>
      rw [List.mapM_nil, pure_eq_ok, List.forall₂_nil_left_iff]
  | cons first rest ih =>
      rw [List.mapM_cons, bind_eq_ok]
      constructor
      · rintro ⟨b, one, others⟩
        obtain ⟨tail, all, same⟩ := bind_eq_ok.mp others
        obtain rfl := pure_eq_ok.mp same
        exact .cons one (ih.mp all)
      · rintro (_ | ⟨one, all⟩)
        exact ⟨_, one, bind_eq_ok.mpr ⟨_, ih.mpr all, rfl⟩⟩

/-- Several parts are there exactly if each is. -/
theorem exists_mapM_eq_ok {f : α → Except ε β} {given : List α} :
    (∃ found, given.mapM f = .ok found) ↔ ∀ a ∈ given, ∃ b, f a = .ok b := by
  induction given with
  | nil => exact ⟨fun _ _ inside => absurd inside List.not_mem_nil, fun _ => ⟨[], rfl⟩⟩
  | cons first rest ih => rw [List.mapM_cons, exists_both_eq_ok, ih, List.forall_mem_cons]

/-- Parts that are known one by one are known together. -/
theorem mapM_map_of_forall {f : α → Except ε β} {part : γ → α} {known : γ → β} {given : List γ}
    (each : ∀ c ∈ given, f (part c) = .ok (known c)) :
    (given.map part).mapM f = .ok (given.map known) := by
  induction given with
  | nil => rfl
  | cons first rest ih =>
      rw [List.map_cons, List.mapM_cons, each first List.mem_cons_self,
        ih fun c inside => each c (List.mem_cons_of_mem _ inside)]
      rfl

theorem mem_of_mapM_eq_ok {f : α → Except ε β} {given : List α} {found : List β} {b : β}
    (all : given.mapM f = .ok found) : b ∈ found ↔ ∃ a ∈ given, f a = .ok b := by
  have each := mapM_eq_ok.mp all
  clear all
  induction each with
  | nil => simp
  | cons one _ ih => simp [one, ih, eq_comm]

/-- What each part keeps is kept in order. -/
theorem map_eq_of_mapM_mem {f : α → Except ε β} {given : List α} {found : List β} {g : α → γ}
    {g' : β → γ} (same : ∀ a ∈ given, ∀ b, f a = .ok b → g' b = g a)
    (all : given.mapM f = .ok found) : found.map g' = given.map g := by
  induction mapM_eq_ok.mp all with
  | nil => rfl
  | cons one others ih =>
      obtain ⟨first, rest⟩ := List.forall_mem_cons.mp same
      rw [List.map_cons, List.map_cons, first _ one, ih rest (mapM_eq_ok.mpr others)]

/-- What all parts keep is kept in order. -/
theorem map_eq_of_mapM_eq_ok {f : α → Except ε β} {given : List α} {found : List β} {g : α → γ}
    {g' : β → γ} (same : ∀ a b, f a = .ok b → g' b = g a) (all : given.mapM f = .ok found) :
    found.map g' = given.map g :=
  map_eq_of_mapM_mem (fun a _ => same a) all

/-! ## The first that fails -/

variable {given : List β} {e : ε}

/-- The first of a row that fails does so with `e`. -/
def FirstFails (f : β → Except ε α) (given : List β) (e : ε) : Prop :=
  ∃ before b after, given = before ++ b :: after ∧ (∀ earlier ∈ before, ∃ a, f earlier = .ok a) ∧
    f b = .error e

theorem not_firstFails_nil {f : β → Except ε α} : ¬ FirstFails f [] e := by
  rintro ⟨before, b, after, same, _⟩
  exact List.append_ne_nil_of_right_ne_nil before (List.cons_ne_nil b after) same.symm

theorem firstFails_cons_iff {f : β → Except ε α} {b : β} :
    FirstFails f (b :: given) e ↔ f b = .error e ∨ (∃ a, f b = .ok a) ∧ FirstFails f given e := by
  constructor
  · rintro ⟨_ | ⟨first, before⟩, b', after, same, fine, failed⟩
    · cases same
      exact .inl failed
    · cases same
      obtain ⟨done, fine⟩ := List.forall_mem_cons.mp fine
      exact .inr ⟨done, before, b', after, rfl, fine, failed⟩
  · rintro (failed | ⟨done, before, b', after, rfl, fine, failed⟩)
    · exact ⟨[], b, given, rfl, fun _ inside => absurd inside List.not_mem_nil, failed⟩
    · exact ⟨b :: before, b', after, rfl, List.forall_mem_cons.mpr ⟨done, fine⟩, failed⟩

theorem mapM_eq_error {f : β → Except ε α} : given.mapM f = .error e ↔ FirstFails f given e := by
  induction given with
  | nil => exact ⟨nofun, fun fails => (not_firstFails_nil fails).elim⟩
  | cons b rest ih =>
      rw [List.mapM_cons, bind_eq_error, firstFails_cons_iff]
      refine or_congr_right ⟨?_, ?_⟩
      · rintro ⟨a, done, others⟩
        refine ⟨⟨a, done⟩, ih.mp ?_⟩
        exact (bind_eq_error.mp others).resolve_right fun ⟨_, _, failed⟩ => nomatch failed
      · rintro ⟨⟨a, done⟩, fails⟩
        exact ⟨a, done, bind_eq_error.mpr (.inl (ih.mpr fails))⟩

/-- Rows whose members fail alike fail alike. -/
theorem firstFails_congr {γ : Type} {f : β → Except ε α} {g : β → Except ε γ}
    (alike : ∀ b e, f b = .error e ↔ g b = .error e) :
    FirstFails f given e ↔ FirstFails g given e := by
  have fine : ∀ b, (∃ a, f b = .ok a) ↔ ∃ c, g b = .ok c := by
    intro b
    cases one : f b with
    | error e' => simp [(alike b e').mp one]
    | ok a =>
        cases other : g b with
        | error e' => cases one.symm.trans ((alike b e').mpr other)
        | ok c => simp
  unfold FirstFails
  simp only [fine, alike]

/-- Steps whose failures do not depend on how far the others got. -/
theorem foldlM_eq_error {σ : Type} {step : σ → β → Except ε σ} {f : β → Except ε α}
    (alike : ∀ s b e, step s b = .error e ↔ f b = .error e) {s : σ} :
    given.foldlM step s = .error e ↔ FirstFails f given e := by
  induction given generalizing s with
  | nil => exact ⟨nofun, fun fails => (not_firstFails_nil fails).elim⟩
  | cons b rest ih =>
      rw [List.foldlM_cons, bind_eq_error, firstFails_cons_iff, alike]
      refine or_congr_right ?_
      cases done : f b with
      | error e' =>
          rw [(alike s b e').mpr done]
          exact ⟨fun ⟨_, other, _⟩ => (nomatch other), fun ⟨⟨_, other⟩, _⟩ => nomatch other⟩
      | ok a =>
          cases stepped : step s b with
          | error e' => cases done.symm.trans ((alike s b e').mp stepped)
          | ok s' =>
              constructor
              · rintro ⟨_, same, others⟩
                exact ⟨⟨a, rfl⟩, ih.mp others⟩
              · rintro ⟨_, fails⟩
                exact ⟨s', rfl, ih.mpr fails⟩

end TaintFlow.Except
