/-
  A condition and its opposite side by side.

  The opposite of the opposite is the condition again (`negate_negate`). A condition and its
  opposite resolve the same names and bind the same operands in the same order, so they are written
  alike step by step (`EndsAlike`): both are refused for the same reason, or both are written from
  the same workspace into the same workspace. Their texts are those of one tree. They differ by one
  word in each comparison (`Turned`), by the word between the members of each group and by the
  opening of each test for a row, and nowhere in the conditions on rows (`Opposed`).
-/
import EntitySql.Proofs.EmptyMembers

namespace EntitySql

/-! ## The opposite of the opposite -/

theorem Connective.dual_dual (k : Connective) : k.dual.dual = k := by
  cases k <;> rfl

namespace Predicate

@[simp] theorem negate_negate (p : Predicate) : p.negate.negate = p := by
  induction p using treeInduction with
  | field c op v negated => rw [negate, negate, Bool.not_not]
  | property c op other negated => rw [negate, negate, Bool.not_not]
  | between c low high negated => rw [negate, negate, Bool.not_not]
  | group k members ih =>
    have hmembers : members.map (negate ∘ negate) = members := by
      have hid : members.map (negate ∘ negate) = members.map id :=
        List.map_congr_left fun p hp => ih p hp
      rw [hid, List.map_id]
    rw [negate, negate, Connective.dual_dual, negateAll_eq_map, negateAll_eq_map, List.map_map,
      hmembers]
  | anyRow e p negated ih => rw [negate, negate, Bool.not_not]

end Predicate

/-! ## Work that ends alike -/

/-- From every state both jobs fail for the same reason, or both answer and the answers are
    related. Either way they leave the same state. -/
def EndsAlike {ε σ α β : Type} (R : α → β → Prop) (job : EStateM ε σ α) (job' : EStateM ε σ β) :
    Prop :=
  ∀ x, (∃ e y, job x = .error e y ∧ job' x = .error e y) ∨
    ∃ a b y, job x = .ok a y ∧ job' x = .ok b y ∧ R a b

namespace EndsAlike

variable {ε σ α β γ δ : Type} {R : α → β → Prop} {Q : γ → δ → Prop}

theorem pure {a : α} {b : β} (h : R a b) :
    EndsAlike R (pure a : EStateM ε σ α) (pure b : EStateM ε σ β) := by
  intro x
  exact .inr ⟨a, b, x, rfl, rfl, h⟩

/-- A job ends like itself, with one of its answers. -/
theorem refl (job : EStateM ε σ α) :
    EndsAlike (fun a b => a = b ∧ ∃ x y, job x = .ok a y) job job := by
  intro x
  cases hx : job x with
  | ok a y => exact .inr ⟨a, a, y, rfl, rfl, rfl, x, y, hx⟩
  | error e y => exact .inl ⟨e, y, rfl, rfl⟩

theorem bind {job : EStateM ε σ α} {job' : EStateM ε σ β} {f : α → EStateM ε σ γ}
    {f' : β → EStateM ε σ δ} (h : EndsAlike R job job')
    (hf : ∀ a b, R a b → EndsAlike Q (f a) (f' b)) : EndsAlike Q (job >>= f) (job' >>= f') := by
  intro x
  rw [bind_run, bind_run]
  rcases h x with ⟨e, y, hx, hx'⟩ | ⟨a, b, y, hx, hx', hR⟩
  · rw [hx, hx']
    exact .inl ⟨e, y, rfl, rfl⟩
  · rw [hx, hx']
    exact hf a b hR y

/-- After the same job both go on alike from each of its answers. -/
theorem after (job : EStateM ε σ α) {f : α → EStateM ε σ γ} {f' : α → EStateM ε σ δ}
    (h : ∀ a, (∃ x y, job x = .ok a y) → EndsAlike Q (f a) (f' a)) :
    EndsAlike Q (job >>= f) (job >>= f') := by
  refine (refl job).bind fun a b hab => ?_
  obtain ⟨rfl, hanswer⟩ := hab
  exact h a hanswer

end EndsAlike

/-! ## Words that are turned -/

/-- What is written in a condition, and what is written in its place in the opposite one. -/
inductive Turned : String → String → Prop
  /-- Equal or not. -/
  | equal : Turned "=" "<>"
  /-- Greater, or less or equal. -/
  | greater : Turned ">" "<="
  /-- Greater or equal, or less. -/
  | greaterOrEqual : Turned ">=" "<"
  /-- Like a pattern or not. -/
  | like : Turned "LIKE" "NOT LIKE"
  /-- Nothing or something. -/
  | nothing : Turned "IS NULL" "IS NOT NULL"
  /-- Among several values or not. -/
  | among : Turned "IN" "NOT IN"
  /-- Among no values, which is never so, or not among them. -/
  | amongNone : Turned "1=0" "1=1"
  /-- Between two values or not. -/
  | between : Turned "BETWEEN" "NOT BETWEEN"
  /-- The opposite of the opposite. -/
  | back {word word' : String} (h : Turned word word') : Turned word' word

namespace Turned

theorem operator (op : Operator) (negated : Bool) :
    Turned (op.sql negated) (op.sql (!negated)) := by
  have hplain : Turned (op.sql false) (op.sql true) := by
    cases op with
    | eq => exact .equal
    | gt => exact .greater
    | ge => exact .greaterOrEqual
    | lt => exact .back .greaterOrEqual
    | le => exact .back .greater
    | like => exact .like
  cases negated with
  | false => exact hplain
  | true => exact hplain.back

end Turned

/-- The texts are the same but for one word, which is turned. -/
def DifferByWord (text text' : String) : Prop :=
  ∃ front word word' back, Turned word word' ∧
    text = front ++ word ++ back ∧ text' = front ++ word' ++ back

namespace DifferByWord

theorem of_turned {word word' : String} (h : Turned word word') : DifferByWord word word' :=
  ⟨"", word, word', "", h, by simp, by simp⟩

theorem around {text text' : String} (h : DifferByWord text text') (front back : String) :
    DifferByWord (front ++ text ++ back) (front ++ text' ++ back) := by
  obtain ⟨left, word, word', right, hword, rfl, rfl⟩ := h
  refine ⟨front ++ left, word, word', right ++ back, hword, ?_, ?_⟩
  · simp only [String.append_assoc]
  · simp only [String.append_assoc]

/-- What stands for a flag and what stands for the turned flag. -/
theorem of_flag {text text' : String} (h : DifferByWord text text') (negated : Bool) :
    DifferByWord (if negated then text' else text) (if !negated then text' else text) := by
  cases negated with
  | false => exact h
  | true =>
    obtain ⟨front, word, word', back, hword, htext, htext'⟩ := h
    exact ⟨front, word', word, back, hword.back, htext', htext⟩

end DifferByWord

/-! ## Texts of opposite conditions -/

namespace Predicate

/-- Whether this is a comparison, which has no condition below it. -/
def isComparison : Predicate → Bool
  | .field _ _ _ _ => true
  | .property _ _ _ _ => true
  | .between _ _ _ _ => true
  | _ => false

/-- What a test for a row begins with. -/
def rowOpening (negated : Bool) : String :=
  if negated then "(NOT EXISTS (SELECT 1 FROM " else "(EXISTS (SELECT 1 FROM "

/-- The first text is one of the condition and the second one of its opposite. -/
inductive Opposed (s : Setting) : Predicate → String → String → Prop
  /-- In comparisons one word is turned. -/
  | comparison {p : Predicate} {text text' : String} (hp : p.isComparison = true)
      (h : DifferByWord text text') : Opposed s p text text'
  /-- Without a condition, both are what the dialect has for the one that is always true. -/
  | empty {k : Connective} {members : List Predicate} (h : inhabited members = []) :
      Opposed s (.group k members) s.dialect.everything s.dialect.everything
  /-- In groups the word between the members is turned, and the texts of each member that is not
      empty face each other. -/
  | group {k : Connective} {members : List Predicate} {texts : List (String × String)}
      (hsome : inhabited members ≠ [])
      (h : List.Forall₂ (fun p t => Opposed s p t.1 t.2) (inhabited members) texts) :
      Opposed s (.group k members) ("(" ++ k.sql.intercalate (texts.map (·.1)) ++ ")")
        ("(" ++ k.dual.sql.intercalate (texts.map (·.2)) ++ ")")
  /-- In tests for a row only the opening is turned. The text of the condition on the row is the
      same one. -/
  | anyRow {e : EntityType} {p : Predicate} {negated : Bool} {table condition : String}
      (h : ∃ w w', Work.clause s p.fragments w = .ok condition w') :
      Opposed s (.anyRow e p negated)
        (rowOpening negated ++ table ++ " WHERE " ++ condition ++ "))")
        (rowOpening (!negated) ++ table ++ " WHERE " ++ condition ++ "))")

end Predicate

namespace Work

open Predicate (Opposed inhabited)

/-- Fragments with one piece of text in their midst, which is turned, are written alike. -/
theorem endsAlike_turned (s : Setting) {p : Predicate} (hp : p.isComparison = true)
    (fs gs : List Fragment) {text text' : String} (h : DifferByWord text text') :
    EndsAlike (p.Opposed s) (clause s (fs ++ .text text :: gs))
      (clause s (fs ++ .text text' :: gs)) := by
  have hsplit (text : String) : clause s (fs ++ .text text :: gs) = do
      let front ← clause s fs
      let back ← clause s gs
      return front ++ text ++ back := by
    rw [clause_append, ← List.singleton_append, clause_append, clause_text]
    simp [String.append_assoc]
  rw [hsplit, hsplit]
  refine .after _ fun front _ => .after _ fun back _ => .pure ?_
  exact .comparison hp (h.around front back)

/-- A comparison with a value is written like the opposite one. -/
theorem endsAlike_field (s : Setting) (c : ColumnRef) (op : Operator) (v : Value)
    (negated : Bool) :
    EndsAlike ((Predicate.field c op v negated).Opposed s)
      (clause s (Predicate.field c op v negated).fragments)
      (clause s (Predicate.field c op v (!negated)).fragments) := by
  have hvalue (base : String) (v' : Value) :=
    endsAlike_turned s (p := .field c op v negated) rfl [.text "(", .column c, .text " "]
      [.text " ", .operand base v', .text ")"] (.of_turned (.operator op negated))
  cases v with
  | null =>
    have hnull : DifferByWord " IS NULL)" " IS NOT NULL)" :=
      (DifferByWord.of_turned .nothing).around " " ")"
    exact endsAlike_turned s rfl [.text "(", .column c] [] (hnull.of_flag negated)
  | list items =>
    rw [Predicate.fragments, Predicate.fragments, Predicate.fieldFragments,
      Predicate.fieldFragments]
    by_cases hop : op = .eq
    · rw [if_pos hop, if_pos hop]
      cases items with
      | nil =>
        have hnone : DifferByWord "(1=0)" "(1=1)" :=
          (DifferByWord.of_turned .amongNone).around "(" ")"
        exact endsAlike_turned s rfl [.lookUp c] [] (hnone.of_flag negated)
      | cons v items =>
        have hsome : DifferByWord " IN (" " NOT IN (" :=
          (DifferByWord.of_turned .among).around " " " ("
        unfold Predicate.listFragments
        dsimp only
        rw [List.append_assoc, List.append_assoc]
        exact endsAlike_turned s rfl [.lookUp c, .text "(", .column c] _ (hsome.of_flag negated)
    · rw [if_neg hop, if_neg hop]
      intro w
      exact .inl ⟨.query .listOperator, w, rfl, rfl⟩
  | _ => exact hvalue _ _

/-- The texts of members face each other, one by one. -/
theorem endsAlike_clauses (s : Setting) {ps : List Predicate}
    (h : ∀ p ∈ ps, EndsAlike (p.Opposed s) (clause s p.fragments)
      (clause s p.negate.fragments)) :
    EndsAlike (fun texts texts' => ∃ both : List (String × String),
        List.Forall₂ (fun p t => p.Opposed s t.1 t.2) ps both ∧
        texts = both.map (·.1) ∧ texts' = both.map (·.2))
      (clauses s ps) (clauses s (ps.map Predicate.negate)) := by
  unfold clauses
  induction ps with
  | nil => exact .pure ⟨[], .nil, rfl, rfl⟩
  | cons p ps ih =>
    rw [List.forall_mem_cons] at h
    rw [List.map_cons, List.mapM_cons, List.mapM_cons]
    refine h.1.bind fun text text' hp => (ih h.2).bind fun texts texts' hps => .pure ?_
    obtain ⟨both, hboth, rfl, rfl⟩ := hps
    exact ⟨(text, text') :: both, .cons hp hboth, rfl, rfl⟩

/-- A condition is written like its opposite. -/
theorem endsAlike_negate (s : Setting) (p : Predicate) :
    EndsAlike (p.Opposed s) (clause s p.fragments) (clause s p.negate.fragments) := by
  induction p using Predicate.treeInduction with
  | field c op v negated => exact endsAlike_field s c op v negated
  | property c op other negated =>
    exact endsAlike_turned s rfl [.text "(", .column c, .text " "]
      [.text " ", .column other, .text ")"] (.of_turned (.operator op negated))
  | between c low high negated =>
    have hrange : DifferByWord " BETWEEN " " NOT BETWEEN " :=
      (DifferByWord.of_turned .between).around " " " "
    exact endsAlike_turned s rfl [.text "(", .column c]
      [.operand c.property low, .text " AND ", .operand c.property high, .text ")"]
      (hrange.of_flag negated)
  | group k members ih =>
    by_cases hnone : inhabited members = []
    · have hempty : (Predicate.group k members).isEmpty = true :=
        (Predicate.inhabited_eq_nil_iff members).mp hnone
      rw [Predicate.fragments_of_isEmpty hempty,
        Predicate.fragments_of_isEmpty ((Predicate.isEmpty_negate _).trans hempty)]
      intro w
      exact .inr ⟨_, _, w, clause_everything s w, clause_everything s w, .empty hnone⟩
    · have hturned : inhabited (members.map Predicate.negate) ≠ [] := by
        rw [Predicate.inhabited_map_negate]
        exact fun h => hnone (List.map_eq_nil_iff.mp h)
      rw [Predicate.negate, Predicate.negateAll_eq_map, clause_group s k hnone,
        clause_group s k.dual hturned, Predicate.inhabited_map_negate]
      have hmembers := endsAlike_clauses s fun p hp => ih p (Predicate.mem_inhabited.mp hp).1
      refine hmembers.bind fun texts texts' h => .pure ?_
      obtain ⟨both, hboth, rfl, rfl⟩ := h
      exact .group hnone hboth
  | anyRow e p negated ih =>
    -- the condition on the row is the same on both sides, so its opposite has no part in this
    rw [Predicate.negate, clause_anyRow, clause_anyRow]
    exact .after _ fun m _ => .after _ fun condition hcondition => .pure (.anyRow hcondition)

end Work

/-! ## Writing behind a text -/

namespace Writing

variable {s : Setting} {fs : List Fragment} {w w' : Workspace}

theorem behind_empty (w : Workspace) (front : String) : Behind front ⟨w, ""⟩ ⟨w, front⟩ := by
  unfold Behind
  rw [String.append_empty]

/-- Fragments that can be written are written behind any text. -/
theorem all_of_clause {text : String} (h : Work.clause s fs w = .ok text w') (front : String) :
    all s fs ⟨w, front⟩ = .ok () ⟨w', front ++ text⟩ := by
  obtain ⟨r, m, m', hm, hm', hbehind⟩ := behind_all front s fs _ _ (behind_empty w front)
  rw [Work.clause_run, hm] at h
  rw [hm', hbehind]
  cases r with
  | error cause => cases h
  | ok _ =>
    cases h
    rfl

/-- Fragments that are refused are refused behind any text. -/
theorem all_of_clause_error {cause : Error} (h : Work.clause s fs w = .error cause w')
    (front : String) : ∃ text, all s fs ⟨w, front⟩ = .error cause ⟨w', front ++ text⟩ := by
  obtain ⟨r, m, m', hm, hm', hbehind⟩ := behind_all front s fs _ _ (behind_empty w front)
  rw [Work.clause_run, hm] at h
  rw [hm', hbehind]
  cases r with
  | error cause =>
    cases h
    exact ⟨m.text, rfl⟩
  | ok _ => cases h

end Writing

/-! ## A condition and its opposite -/

/-- The opposite of the opposite is the condition, and both are empty or neither is. From any
    workspace, whatever is bound there, and behind any text, a condition and its opposite are
    refused for the same reason, or both are written. Either way they leave one workspace, in which
    the same values are bound under the same names in the same order. Their texts are those of one
    tree: in every comparison one word is turned, and so are the word between the members of every
    group and the opening of every test for a row, while the condition on the row is the same text
    in both. -/
theorem opposites_differ_by_turned_words (s : Setting) (p : Predicate) :
    p.negate.negate = p ∧ p.negate.isEmpty = p.isEmpty ∧
    ∀ (w : Workspace) (front : String),
      (∃ cause w' text text',
        Writing.all s p.fragments ⟨w, front⟩ = .error cause ⟨w', front ++ text⟩ ∧
        Writing.all s p.negate.fragments ⟨w, front⟩ = .error cause ⟨w', front ++ text'⟩) ∨
      ∃ w' text text',
        Writing.all s p.fragments ⟨w, front⟩ = .ok () ⟨w', front ++ text⟩ ∧
        Writing.all s p.negate.fragments ⟨w, front⟩ = .ok () ⟨w', front ++ text'⟩ ∧
        p.Opposed s text text' := by
  refine ⟨p.negate_negate, p.isEmpty_negate, fun w front => ?_⟩
  rcases Work.endsAlike_negate s p w with
    ⟨cause, w', hrefused, hrefused'⟩ | ⟨text, text', w', hwritten, hwritten', hopposed⟩
  · left
    obtain ⟨text, htext⟩ := Writing.all_of_clause_error hrefused front
    obtain ⟨text', htext'⟩ := Writing.all_of_clause_error hrefused' front
    exact ⟨cause, w', text, text', htext, htext'⟩
  · right
    exact ⟨w', text, text', Writing.all_of_clause hwritten front,
      Writing.all_of_clause hwritten' front, hopposed⟩

end EntitySql
