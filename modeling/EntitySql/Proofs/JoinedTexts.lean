/-
  The two ways of joining items, where items may be silent.

  One way writes the separator between any two items, so that the text is that of all items
  (`interspersed_eq`). The other way leaves it out behind an item that wrote nothing, so that of the
  silent items only the last one keeps its place in the text (`separated_eq`). Each place that is
  lost takes one separator with it (`length_intercalate`), so the texts are the same just when no
  place is lost or the separator writes nothing.
-/
import EntitySql.Text.Separated
import Mathlib.Data.List.TakeDrop
import Mathlib.Data.List.TakeWhile

namespace EntitySql.Text

/-! ## Separators between any two items -/

theorem interspersed_go_eq (separator out : String) (items : List String) :
    interspersed.go separator out items = separator.intercalate (out :: items) := by
  induction items generalizing out with
  | nil => exact String.intercalate_singleton.symm
  | cons item items ih =>
    rw [interspersed.go, ih, String.intercalate_cons_append, String.intercalate_cons_cons]

theorem interspersed_eq (separator out : String) (items : List String) :
    interspersed separator out items = out ++ separator.intercalate items := by
  cases items with
  | nil => exact String.append_empty.symm
  | cons item items => rw [interspersed, interspersed_go_eq, String.intercalate_cons_append]

/-- Where no item fails, all of them are written. -/
theorem interspersedUntil_eq (separator out : String) {fails : String → Bool}
    {items : List String} (hnever : ∀ item ∈ items, fails item = false) :
    interspersedUntil separator fails out items = (interspersed separator out items, none) := by
  have hall : ∀ item ∈ items, (!fails item) = true := by
    intro item hitem
    rw [hnever item hitem]
    rfl
  have hspan : items.span (fun item => !fails item) = (items, []) := by
    rw [List.span_eq_takeWhile_dropWhile, List.takeWhile_eq_self_iff.mpr hall,
      List.dropWhile_eq_nil_iff.mpr hall]
  rw [interspersedUntil, hspan]

/-! ## Separators behind items that wrote something -/

/-- The items that keep a place in the text: those that write something, and the last one. -/
def placed (items : List String) : List String :=
  items.dropLast.filter (· ≠ "") ++ items.getLast?.toList

theorem placed_cons_cons (item next : String) (items : List String) :
    placed (item :: next :: items) =
      if item = "" then placed (next :: items) else item :: placed (next :: items) := by
  unfold placed
  rw [List.dropLast_cons_cons, List.filter_cons, List.getLast?_cons_cons]
  by_cases hitem : item = ""
  · simp [hitem]
  · simp [hitem]

theorem placed_ne_nil (item : String) (items : List String) : placed (item :: items) ≠ [] := by
  unfold placed
  rw [List.getLast?_cons]
  simp

/-- Where no item in front of the last one is silent, all items keep their places. -/
theorem placed_eq_self {items : List String} (h : ∀ item ∈ items.dropLast, item ≠ "") :
    placed items = items := by
  have hfilter : items.dropLast.filter (· ≠ "") = items.dropLast :=
    List.filter_eq_self.mpr fun item hitem => by simpa using h item hitem
  unfold placed
  rw [hfilter, List.dropLast_eq_take, List.take_append_getLast?]

/-- What is written behind a text, by whether the item in front wrote something. -/
theorem separated_go_eq (separator out item : String) (wrote : Bool) (items : List String) :
    separated.go separator out wrote (item :: items) =
      (if wrote then out ++ separator else out) ++
        separator.intercalate (placed (item :: items)) := by
  induction items generalizing out item wrote with
  | nil =>
    have hitem : separator.intercalate (placed [item]) = item := String.intercalate_singleton
    rw [hitem]
    rfl
  | cons next items ih =>
    rw [separated.go, ih, placed_cons_cons]
    by_cases hitem : item = ""
    · simp [hitem]
    · have hwrote : (!item.isEmpty) = true := by simpa using hitem
      rw [if_neg hitem, hwrote, if_pos rfl,
        String.intercalate_cons_of_ne_nil (placed_ne_nil next items)]
      simp only [String.append_assoc]

theorem separated_eq (separator out : String) (items : List String) :
    separated separator out items = out ++ separator.intercalate (placed items) := by
  cases items with
  | nil => exact String.append_empty.symm
  | cons item items => exact separated_go_eq separator out item false items

/-! ## Both ways -/

/-- Each silent item in front of the last one takes one separator out of the text. -/
theorem length_intercalate (separator : String) (items : List String) :
    (separator.intercalate items).length =
      (separator.intercalate (placed items)).length +
        items.dropLast.count "" * separator.length := by
  induction items with
  | nil => simp [placed]
  | cons item items ih =>
    cases items with
    | nil => simp [placed]
    | cons next items =>
      rw [String.intercalate_cons_cons, String.length_append, String.length_append, ih,
        placed_cons_cons, List.dropLast_cons_cons]
      by_cases hitem : item = ""
      · have hlength : "".length = 0 := rfl
        rw [if_pos hitem, hitem, List.count_cons_self, Nat.add_mul, Nat.one_mul, hlength]
        omega
      · rw [if_neg hitem, List.count_cons_of_ne hitem,
          String.intercalate_cons_of_ne_nil (placed_ne_nil next items), String.length_append,
          String.length_append]
        omega

/-- A separator that writes nothing is not missed. -/
theorem intercalate_placed_of_empty (items : List String) :
    "".intercalate (placed items) = "".intercalate items := by
  induction items with
  | nil => rfl
  | cons item items ih =>
    cases items with
    | nil => rfl
    | cons next items =>
      rw [String.intercalate_cons_cons, ← ih, placed_cons_cons]
      by_cases hitem : item = ""
      · rw [if_pos hitem, hitem, String.empty_append, String.empty_append]
      · rw [if_neg hitem, String.intercalate_cons_of_ne_nil (placed_ne_nil next items)]

theorem intercalate_eq_iff (separator : String) (items : List String) :
    separator.intercalate items = separator.intercalate (placed items) ↔
      separator = "" ∨ ∀ item ∈ items.dropLast, item ≠ "" := by
  constructor
  · intro h
    have hlength := length_intercalate separator items
    rw [h] at hlength
    have hnone : items.dropLast.count "" * separator.length = 0 := by omega
    rcases Nat.mul_eq_zero.mp hnone with hcount | hseparator
    · right
      rintro item hitem rfl
      exact List.count_eq_zero.mp hcount hitem
    · exact .inl (String.length_eq_zero_iff.mp hseparator)
  · rintro (rfl | h)
    · exact (intercalate_placed_of_empty items).symm
    · rw [placed_eq_self h]

/-- For every separator, every text in front and every list of items that do not fail, joining
    with a separator between any two items writes all of them, and joining with a separator behind
    items that wrote something writes them without the silent ones in front of the last one. The
    two texts are the same just when there are no such silent items, or the separator is empty. -/
theorem joins_agree_iff (separator out : String) {fails : String → Bool} {items : List String}
    (hnever : ∀ item ∈ items, fails item = false) :
    interspersedUntil separator fails out items =
        (out ++ separator.intercalate items, none) ∧
      separated separator out items = out ++ separator.intercalate (placed items) ∧
      ((interspersedUntil separator fails out items).1 = separated separator out items ↔
        separator = "" ∨ ∀ item ∈ items.dropLast, item ≠ "") := by
  have huntil := interspersedUntil_eq separator out hnever
  rw [interspersed_eq] at huntil
  refine ⟨huntil, separated_eq separator out items, ?_⟩
  rw [huntil, separated_eq, String.append_right_inj]
  exact intercalate_eq_iff separator items

/-- A silent item at the end of a list of names keeps its place either way. -/
theorem joins_agree_iff_names :
    (∀ item ∈ ["id", "name", ""], (fun _ => false) item = false) ∧
      interspersedUntil ", " (fun _ => false) "(" ["id", "name", ""] = ("(id, name, ", none) ∧
      separated ", " "(" ["id", "name", ""] = "(id, name, " := by
  have hnever : ∀ item ∈ ["id", "name", ""], (fun _ => false) item = false := fun _ _ => rfl
  obtain ⟨huntil, -, hagree⟩ := joins_agree_iff ", " "(" hnever
  have hsilent : ∀ item ∈ ["id", "name", ""].dropLast, item ≠ "" := by decide
  have hsame := hagree.mpr (.inr hsilent)
  have htext : "(" ++ ", ".intercalate ["id", "name", ""] = "(id, name, " := by decide
  rw [htext] at huntil
  rw [huntil] at hsame
  exact ⟨hnever, huntil, hsame.symm⟩

/-- A silent item in front of another one tells the two ways of joining apart. -/
theorem joins_differ_behind_silence :
    interspersedUntil ", " (fun _ => false) "" ["", "a"] = (", a", none) ∧
      separated ", " "" ["", "a"] = "a" ∧
      ¬ ∀ items, (interspersedUntil ", " (fun _ => false) "" items).1 =
        separated ", " "" items := by
  have huntil : interspersedUntil ", " (fun _ => false) "" ["", "a"] = (", a", none) := by decide
  have hseparated : separated ", " "" ["", "a"] = "a" := by decide
  refine ⟨huntil, hseparated, fun hsame => ?_⟩
  have htexts := hsame ["", "a"]
  rw [huntil, hseparated] at htexts
  exact absurd htexts (by decide)

end EntitySql.Text
