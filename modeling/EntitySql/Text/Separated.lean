/-
  Joining written items with a separator. An item is any function that writes behind a text;
  the two joins differ in when the separator is written.
-/

namespace EntitySql.Text

/-- Writes the items one behind the other. The separator goes in front of an item only when
    the item before it wrote something, so an item that writes nothing leaves no separator
    behind it. -/
def separated (separator : String) (out : String) (items : List String) : String :=
  go out false items
where
  /-- `wrote` tells whether the item written last left a mark. -/
  go (out : String) (wrote : Bool) : List String → String
    | [] => out
    | item :: items =>
      let out := if wrote then out ++ separator else out
      go (out ++ item) (!item.isEmpty) items

/-- Items with the separator between any two of them, whatever they hold. -/
def interspersed (separator : String) (out : String) : List String → String
  | [] => out
  | item :: items => go (out ++ item) items
where
  /-- Every item after the first stands behind a separator. -/
  go (out : String) : List String → String
    | [] => out
    | item :: items => go (out ++ separator ++ item) items

/-- Writes items with the separator between any two of them until one fails. A failing item
    keeps what it wrote; the answer is the text and the item that failed. -/
def interspersedUntil (separator : String) (fails : String → Bool) (out : String)
    (items : List String) : String × Option String :=
  match items.span (fun item => !fails item) with
  | (whole, []) => (interspersed separator out whole, none)
  | (whole, bad :: _) => (interspersed separator out (whole ++ [bad]), some bad)

/-! ## Laws -/

/-- Where every item writes something the two joins agree. -/
theorem separated_go_eq_interspersed_go (separator out : String) (items : List String)
    (h : ∀ item ∈ items, item.isEmpty = false) :
    separated.go separator out true items = interspersed.go separator out items := by
  induction items generalizing out with
  | nil => rfl
  | cons item items ih =>
    have hi : item.isEmpty = false := h item (by simp)
    simp only [separated.go, interspersed.go, hi, Bool.not_false, ↓reduceIte]
    exact ih _ (fun x hx => h x (by simp [hx]))

theorem separated_eq_interspersed (separator out : String) (items : List String)
    (h : ∀ item ∈ items, item.isEmpty = false) :
    separated separator out items = interspersed separator out items := by
  cases items with
  | nil => rfl
  | cons item items =>
    have hi : item.isEmpty = false := h item (by simp)
    simp only [separated, separated.go, interspersed, hi, Bool.not_false, Bool.false_eq_true,
      ↓reduceIte]
    exact separated_go_eq_interspersed_go _ _ _ (fun x hx => h x (by simp [hx]))

end EntitySql.Text
