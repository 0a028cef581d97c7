import TaintFlow.Value

/-!
# Summaries that are cut

The summary of a value shows its payload, cut to a number of characters.  The cut
keeps to its limit if the limit leaves room for the ellipsis, or if nothing has
to be cut, and never otherwise: the main statement is `describe_cuts`.
-/

namespace TaintFlow.Value

/-- What stands behind a text that has been cut. -/
def ellipsis : List Char := ['.', '.', '.']

/-- The text is cut to a limit: it is no longer than that, it is all there if it fits, and if not, a
front part of it is there, with an ellipsis behind where the limit leaves room for one. -/
structure IsCut (limit : Nat) (text cut : List Char) : Prop where
  bounded : cut.length ≤ limit
  whole : text.length ≤ limit → cut = text
  front : limit < text.length →
    ∃ part, part <+: text ∧ cut = part ++ if ellipsis.length ≤ limit then ellipsis else []

variable {limit : Nat} {text : List Char}

theorem shorten_of_fits (fits : text.length ≤ limit) : shorten limit text = text :=
  if_neg (by omega)

theorem shorten_of_room (long : limit < text.length) (room : ellipsis.length ≤ limit) :
    shorten limit text = text.take (limit - ellipsis.length) ++ ellipsis := by
  change 3 ≤ limit at room
  unfold shorten takeChars
  rw [if_pos (by omega), if_pos (by omega), show ((limit : Int) - 3).toNat = limit - 3 by omega]
  rfl

/-- Without room for the ellipsis the characters that it takes too many are counted from the end. -/
theorem shorten_of_tight (long : limit < text.length) (tight : limit < ellipsis.length) :
    shorten limit text =
      text.take (text.length - (ellipsis.length - limit)) ++ ellipsis := by
  change limit < 3 at tight
  unfold shorten takeChars
  rw [if_pos (by omega), if_neg (by omega),
    show (-((limit : Int) - 3)).toNat = 3 - limit by omega]
  rfl

theorem isCut_of_fits (fits : text.length ≤ limit) : IsCut limit text text :=
  ⟨fits, fun _ => rfl, fun long => absurd fits (Nat.not_le_of_lt long)⟩

theorem isCut_of_room (long : limit < text.length) (room : ellipsis.length ≤ limit) :
    IsCut limit text (text.take (limit - ellipsis.length) ++ ellipsis) := by
  refine ⟨?_, fun fits => absurd fits (Nat.not_le_of_lt long), fun _ => ?_⟩
  · rw [List.length_append, List.length_take]
    omega
  · exact ⟨_, List.take_prefix _ _, by rw [if_pos room]⟩

/-- A text is cut as it should be if it fits or the ellipsis does, and never otherwise. -/
theorem isCut_shorten_iff :
    IsCut limit text (shorten limit text) ↔ text.length ≤ limit ∨ ellipsis.length ≤ limit := by
  rcases Nat.lt_or_ge limit text.length with long | fits
  · rcases Nat.lt_or_ge limit ellipsis.length with tight | room
    · refine ⟨fun cut => ?_, fun fits => by omega⟩
      -- The ellipsis alone is longer than the limit.
      have bounded := cut.bounded
      rw [shorten_of_tight long tight, List.length_append] at bounded
      omega
    · rw [shorten_of_room long room]
      exact ⟨fun _ => .inr room, fun _ => isCut_of_room long room⟩
  · rw [shorten_of_fits fits]
    exact ⟨fun _ => .inl fits, fun _ => isCut_of_fits fits⟩

/-- **Summaries keep to their limit if it has room for the ellipsis.** A value has a summary unless
its payload cannot be written.  The summary shows the payload cut to the limit if the payload fits
or the ellipsis does; under a limit that is shorter than the ellipsis a longer payload loses only a
few characters at its end, and has the ellipsis behind. -/
theorem describe_cuts (v : Value) (limit : Nat) :
    (v.payload.isWritable = false ∧ v.describe limit = .error Number.unwritable) ∨
      ∃ summary, v.payload.isWritable = true ∧ v.describe limit = .ok summary ∧
        summary.labels = v.labels.texts ∧ summary.hops = v.hops ∧
        (IsCut limit v.payload.shown.toList summary.payload.toList ↔
          v.payload.shown.toList.length ≤ limit ∨ ellipsis.length ≤ limit) ∧
        (limit < v.payload.shown.toList.length → limit < ellipsis.length →
          summary.payload.toList = v.payload.shown.toList.take
            (v.payload.shown.toList.length - (ellipsis.length - limit)) ++ ellipsis) := by
  unfold describe
  cases written : v.payload.isWritable with
  | false => exact .inl ⟨rfl, rfl⟩
  | true =>
      refine .inr ⟨_, rfl, rfl, rfl, rfl, ?_, ?_⟩
      · rw [String.toList_ofList]
        exact isCut_shorten_iff
      · intro long tight
        rw [String.toList_ofList]
        exact shorten_of_tight long tight

/-- The summary of a text of six characters, cut to two, has ten. -/
theorem describe_not_cut :
    ∃ summary, (constant (.text "abcdef")).describe 2 = .ok summary ∧
      summary.payload = "'abcdef..." ∧
      ¬ IsCut 2 (Payload.text "abcdef").shown.toList summary.payload.toList := by
  refine ⟨_, rfl, by decide, fun cut => ?_⟩
  exact absurd cut.bounded (by decide)

end TaintFlow.Value
