/-
  The text of an identifier, and values with their identifiers in that form.

  The digits of an identifier are those of its number in base sixteen (`readHex_hexDigits`), so the
  text tells the identifier. `InText` compares a value with what is bound for it: identifiers are
  texts there, at any depth, and nothing else differs. It does not mention how the second value
  comes about; `inText_uuidsAsText` says that dialects without a type for identifiers bind so.
-/
import EntitySql.Dialect
import Mathlib.Data.List.Forall2

namespace EntitySql

/-! ## Digits -/

namespace Uuid

/-- The digits of base sixteen, in lower case. -/
def lowerDigits : List Char := "0123456789abcdef".toList

theorem hexDigit_mem {n : Nat} (h : n < 16) : hexDigit n ∈ lowerDigits := by
  decide +revert

theorem hexValue?_hexDigit {n : Nat} (h : n < 16) : hexValue? (hexDigit n) = some n := by
  decide +revert

theorem length_hexDigits (count n : Nat) (cs : List Char) :
    (hexDigits count n cs).length = count + cs.length := by
  induction count generalizing n cs with
  | zero => rw [hexDigits, Nat.zero_add]
  | succ count ih =>
    rw [hexDigits, ih, List.length_cons]
    omega

theorem mem_hexDigits {count n : Nat} {cs : List Char} {c : Char}
    (h : c ∈ hexDigits count n cs) : c ∈ lowerDigits ∨ c ∈ cs := by
  induction count generalizing n cs with
  | zero => exact .inr h
  | succ count ih =>
    rcases ih h with hdigit | hcs
    · exact .inl hdigit
    · rcases List.mem_cons.mp hcs with rfl | hcs
      · exact .inl (hexDigit_mem (Nat.mod_lt n (by decide)))
      · exact .inr hcs

/-- Digits are read as the end of the number that they were written for. -/
theorem readHex_hexDigits (count n m : Nat) (cs : List Char) :
    readHex m (hexDigits count n cs) =
      readHex (Nat.pow 16 count * m + n % Nat.pow 16 count) cs := by
  induction count generalizing n cs with
  | zero =>
    have hone : Nat.pow 16 0 = 1 := rfl
    rw [hexDigits, hone, Nat.one_mul, Nat.mod_one, Nat.add_zero]
  | succ count ih =>
    have hpow : Nat.pow 16 (count + 1) = 16 * Nat.pow 16 count := Nat.mul_comm _ _
    rw [hexDigits, ih, readHex, hexValue?_hexDigit (Nat.mod_lt n (by decide)), Option.bind_some,
      hpow, Nat.mod_mul, Nat.mul_assoc]
    congr 1
    omega

/-- The text is the identifier in lower case, in five groups. -/
structure IsHyphenated (u : Uuid) (text : String) : Prop where
  /-- Thirty-two digits stand in groups of eight, four, four, four and twelve. -/
  digits : ∃ ds, ds.length = 32 ∧ text.toList = hyphenate ds ∧ (∀ c ∈ ds, c ∈ lowerDigits) ∧
    readHex 0 ds = some u.value.toNat

theorem isHyphenated_text (u : Uuid) : u.IsHyphenated u.text := by
  refine ⟨u.hex, length_hexDigits 32 _ [], String.toList_ofList, fun c hc => ?_, ?_⟩
  · exact (mem_hexDigits hc).resolve_right List.not_mem_nil
  · have hlt : u.value.toNat < Nat.pow 16 32 := u.value.isLt
    unfold hex
    rw [readHex_hexDigits, Nat.mul_zero, Nat.zero_add, Nat.mod_eq_of_lt hlt]
    rfl

end Uuid

/-! ## Values -/

namespace Value

/-- The identifier is in the value, at some depth. -/
inductive Holds (u : Uuid) : Value → Prop
  /-- It is the value. -/
  | self : Holds u (.uuid u)
  /-- It is in an item of a list. -/
  | item {items : List Value} {v : Value} (hv : v ∈ items) (h : Holds u v) : Holds u (.list items)

/-- The second value is the first one with the text of each identifier in its place. -/
inductive InText : Value → Value → Prop
  /-- An identifier is its text. -/
  | uuid {u : Uuid} {text : String} (h : u.IsHyphenated text) : InText (.uuid u) (.text text)
  /-- A list is a list of as many values, one by one. -/
  | list {items texts : List Value} (h : List.Forall₂ InText items texts) :
    InText (.list items) (.list texts)
  /-- Anything else stays. -/
  | same {v : Value} (huuid : ∀ u, v ≠ .uuid u) (hlist : ∀ items, v ≠ .list items) : InText v v

/-- What stands beside the items of another list is related to one of them. -/
theorem exists_of_mem_forall₂ {α β : Type} {R : α → β → Prop} {xs : List α} {ys : List β}
    (h : List.Forall₂ R xs ys) {y : β} (hy : y ∈ ys) : ∃ x ∈ xs, R x y := by
  induction h with
  | nil => cases hy
  | cons hxy _ ih =>
    rcases List.mem_cons.mp hy with rfl | hy
    · exact ⟨_, List.mem_cons_self, hxy⟩
    · obtain ⟨x, hx, hR⟩ := ih hy
      exact ⟨x, List.mem_cons_of_mem _ hx, hR⟩

/-- There is no identifier in a value whose identifiers are texts. -/
theorem InText.not_holds {v v' : Value} (h : InText v v') (u : Uuid) : ¬ Holds u v' := by
  intro hu
  induction hu generalizing v with
  | self =>
    cases h with
    | same huuid => exact huuid u rfl
  | item hitem _ ih =>
    cases h with
    | list hitems =>
      obtain ⟨x, -, hx⟩ := exists_of_mem_forall₂ hitems hitem
      exact ih hx
    | same _ hlist => exact hlist _ rfl

end Value

namespace Dialect

open Value

mutual

theorem inText_uuidsAsText : ∀ v : Value, InText v (uuidsAsText v)
  | .uuid u => .uuid u.isHyphenated_text
  | .list items => .list (forall₂_allUuidsAsText items)
  | .null => .same nofun nofun
  | .boolean _ => .same nofun nofun
  | .int32 _ => .same nofun nofun
  | .int64 _ => .same nofun nofun
  | .float64 _ => .same nofun nofun
  | .decimal _ => .same nofun nofun
  | .text _ => .same nofun nofun
  | .bytes _ => .same nofun nofun
  | .date _ => .same nofun nofun
  | .time _ => .same nofun nofun
  | .timestamp _ => .same nofun nofun

theorem forall₂_allUuidsAsText : ∀ vs : List Value, List.Forall₂ InText vs (allUuidsAsText vs)
  | [] => .nil
  | v :: vs => .cons (inText_uuidsAsText v) (forall₂_allUuidsAsText vs)

end

end Dialect

end EntitySql
