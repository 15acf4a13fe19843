/-
  Streams of answers, and what calls make of them.

  An executor can leave the reading of rows and of counts to its stream (`ReadsRun`). Rows and
  counts are both read up to the first failure, which is the answer then; without one the rows keep
  their order (`collected_rowStream`) and the counts are added up (`affectedOf_eq`).

  Counts have 64 bits and so has their sum. Each count is added as it comes, and since sums only
  grow, one of them is too large just when all counts in front of the first failure are together
  (`RowsAffected.extend_eq`). The answer is a fault then. Otherwise the sum is exact, and a call
  that changes rows tells by it whether some count is positive (`IsSumOf.pos_iff`).
-/
import EntitySql.Proofs.SeveralAnswers
import EntitySql.Proofs.SingleExchange
import EntitySql.Samples
import Mathlib.Data.List.Basic
import Mathlib.Data.List.TakeWhile

namespace EntitySql

/-! ## Sums of counts -/

namespace RowsAffected

/-- The exact number of rows of all counts. -/
def total : List RowsAffected → Nat
  | [] => 0
  | n :: counts => n.rows.toNat + total counts

/-- The last identifier that one of the counts knows. -/
def lastKnown? (counts : List RowsAffected) : Option Int64 := (counts.filterMap (·.lastId)).getLast?

/-- The number of rows of all counts, and the last identifier that is known. -/
structure IsSumOf (sum : RowsAffected) (counts : List RowsAffected) : Prop where
  /-- The number is exact. -/
  rows : sum.rows.toNat = total counts
  /-- The identifier. -/
  lastId : sum.lastId = lastKnown? counts

theorem total_pos_iff (counts : List RowsAffected) :
    0 < total counts ↔ ∃ n ∈ counts, 0 < n.rows := by
  induction counts with
  | nil => simp [total]
  | cons n counts ih =>
    have hpos : 0 < n.rows ↔ 0 < n.rows.toNat := UInt64.lt_iff_toNat_lt
    rw [List.exists_mem_cons_iff, ← ih, hpos, total]
    omega

theorem lastKnown?_cons (n : RowsAffected) (counts : List RowsAffected) :
    lastKnown? (n :: counts) = (lastKnown? counts).or n.lastId := by
  unfold lastKnown?
  rw [List.filterMap_cons]
  cases n.lastId with
  | none => exact (Option.or_none).symm
  | some id =>
    dsimp only
    rw [List.getLast?_cons]
    cases (counts.filterMap (·.lastId)).getLast? <;> rfl

theorem append_of_fits {a b : RowsAffected}
    (h : a.rows.toNat + b.rows.toNat < UInt64.size) :
    a.append b = .ok ⟨a.rows + b.rows, b.lastId.or a.lastId⟩ := if_pos h

theorem append_of_overflows {a b : RowsAffected}
    (h : UInt64.size ≤ a.rows.toNat + b.rows.toNat) : a.append b = .error .countOverflow :=
  if_neg (Nat.not_lt.mpr h)

/-- Counts are added up exactly, or 64 bits do not hold all of them together. -/
theorem extend_eq (n : RowsAffected) (counts : List RowsAffected) :
    n.extend counts =
      if n.rows.toNat + total counts < UInt64.size then
        .ok ⟨.ofNat (n.rows.toNat + total counts), (lastKnown? counts).or n.lastId⟩
      else .error .countOverflow := by
  induction counts generalizing n with
  | nil =>
    rw [total, Nat.add_zero, UInt64.ofNat_toNat, if_pos n.rows.toNat_lt]
    rfl
  | cons m counts ih =>
    have hstep : n.extend (m :: counts) = n.append m >>= (·.extend counts) := rfl
    rw [hstep, total, ← Nat.add_assoc]
    by_cases h : n.rows.toNat + m.rows.toNat < UInt64.size
    · -- the sum so far is exact, and the rest is added to it
      have hsum : (n.rows + m.rows).toNat = n.rows.toNat + m.rows.toNat := by
        rw [UInt64.toNat_add, Nat.mod_eq_of_lt h]
      have hrest := ih ⟨n.rows + m.rows, m.lastId.or n.lastId⟩
      rw [append_of_fits h, lastKnown?_cons, Option.or_assoc, ← hsum]
      exact hrest
    · -- what follows can only make the sum larger
      rw [append_of_overflows (Nat.not_lt.mp h), if_neg (by omega)]
      rfl

theorem extend_empty_eq (counts : List RowsAffected) :
    ({} : RowsAffected).extend counts =
      if total counts < UInt64.size then .ok ⟨.ofNat (total counts), lastKnown? counts⟩
      else .error .countOverflow := by
  have hextend := extend_eq {} counts
  have hzero : ({} : RowsAffected).rows.toNat + total counts = total counts := Nat.zero_add _
  rw [hzero, Option.or_none] at hextend
  exact hextend

theorem extend_of_fits {counts : List RowsAffected} (h : total counts < UInt64.size) :
    ∃ sum : RowsAffected, ({} : RowsAffected).extend counts = .ok sum ∧ sum.IsSumOf counts :=
  ⟨_, (extend_empty_eq counts).trans (if_pos h), UInt64.toNat_ofNat_of_lt h, rfl⟩

theorem extend_of_overflows {counts : List RowsAffected} (h : UInt64.size ≤ total counts) :
    ({} : RowsAffected).extend counts = .error .countOverflow :=
  (extend_empty_eq counts).trans (if_neg (Nat.not_lt.mpr h))

/-- The sum is positive when one of the counts is. -/
theorem IsSumOf.pos_iff {sum : RowsAffected} {counts : List RowsAffected}
    (h : sum.IsSumOf counts) : 0 < sum.rows ↔ ∃ n ∈ counts, 0 < n.rows := by
  rw [← total_pos_iff, ← h.rows]
  exact UInt64.lt_iff_toNat_lt

end RowsAffected

/-! ## Readings of a stream -/

namespace Executor

variable {σ α β : Type}

/-- The first failure of a stream. -/
def firstFailure? (items : List (Except Error α)) : Option Error :=
  items.findSome? fun
    | .error e => some e
    | .ok _ => none

/-- The rows of a stream, in its order. -/
def rowsIn (items : List (Except Error ResultItem)) : List Row :=
  items.filterMap fun
    | .ok (.row r) => some r
    | _ => none

/-- The counts of a stream, in its order. -/
def countsIn (items : List (Except Error ResultItem)) : List RowsAffected :=
  items.filterMap fun
    | .ok (.affected n) => some n
    | _ => none

/-- The counts of a stream in front of its first failure. -/
def countsInFront (items : List (Except Error ResultItem)) : List RowsAffected :=
  countsIn (items.takeWhile (·.isOk))

/-- The first failure of a stream, or else the answer. -/
def unlessFailed (items : List (Except Error α)) (answer : β) : Except Error β :=
  match firstFailure? items with
  | some e => .error e
  | none => .ok answer

theorem firstFailure?_rowStream (items : List (Except Error ResultItem)) :
    firstFailure? (rowStream items) = firstFailure? items := by
  induction items with
  | nil => rfl
  | cons item items ih =>
    rcases item with e | r | n
    · rfl
    · exact ih
    · exact ih

/-- Without a failure, the rows are left of a stream. -/
theorem rowStream_eq {items : List (Except Error ResultItem)} (h : firstFailure? items = none) :
    rowStream items = (rowsIn items).map .ok := by
  induction items with
  | nil => rfl
  | cons item items ih =>
    rcases item with e | r | n
    · cases h
    · exact congrArg (Except.ok r :: ·) (ih h)
    · exact ih h

theorem map_unlessFailed (items : List (Except Error α)) (answer : β) {γ : Type} (f : β → γ) :
    (unlessFailed items answer).map f = unlessFailed items (f answer) := by
  unfold unlessFailed
  cases firstFailure? items <;> rfl

theorem collected_rowStream (items : List (Except Error ResultItem)) :
    collected (rowStream items) = unlessFailed items (rowsIn items) := by
  induction items with
  | nil => rfl
  | cons item items ih =>
    rcases item with e | r | n
    · rfl
    · have hrest := congrArg (Except.map (r :: ·)) ih
      rw [map_unlessFailed] at hrest
      exact hrest
    · exact ih

/-- Without a failure, all counts are in front of it. -/
theorem countsInFront_eq {items : List (Except Error ResultItem)}
    (h : firstFailure? items = none) : countsInFront items = countsIn items := by
  have hok : ∀ item ∈ items, item.isOk = true := by
    intro item hitem
    have hnone := List.findSome?_eq_none_iff.mp h item hitem
    cases item with
    | error e => cases hnone
    | ok item => rfl
  unfold countsInFront
  rw [List.takeWhile_eq_self_iff.mpr hok]

theorem affectedOf_eq (n : RowsAffected) (items : List (Except Error ResultItem)) :
    affectedOf n items = n.extend (countsInFront items) >>= unlessFailed items := by
  induction items generalizing n with
  | nil => rfl
  | cons item items ih =>
    rcases item with e | r | m
    · rfl
    · exact ih n
    · change n.append m >>= (affectedOf · items) =
        (n.append m >>= (·.extend (countsInFront items))) >>= unlessFailed items
      cases n.append m with
      | error e => rfl
      | ok sum => exact ih sum

/-- The executor leaves the reading of rows and of counts to its stream. -/
structure ReadsRun (x : Executor σ) : Prop where
  /-- Rows are those of the stream. -/
  fetch : ∀ st s, x.fetch st s = (rowStream (x.run st s).1, (x.run st s).2)
  /-- The counts of the stream are added up. -/
  execute : ∀ st s, x.execute st s = (affectedOf {} (x.run st s).1, (x.run st s).2)

/-- An executor with readings of its own for batches at most leaves the others to its stream. -/
theorem readsRun_run (run : Statement → σ → List (Except Error ResultItem) × σ)
    (runBatch : Statement → σ → Except Error (List RowSet) × σ) :
    ({ run := run, runBatch := runBatch } : Executor σ).ReadsRun :=
  ⟨fun _ _ => rfl, fun _ _ => rfl⟩

/-- What a call answers that tells by a stream of counts whether rows were changed. -/
inductive TellsChange (items : List (Except Error ResultItem)) : Except Error Bool → Prop where
  /-- The counts in front of the first failure add up to more than 64 bits hold. -/
  | faulted (h : UInt64.size ≤ RowsAffected.total (countsInFront items)) :
    TellsChange items (.error .countOverflow)
  /-- The first failure. -/
  | failed {e : Error} (hfits : RowsAffected.total (countsInFront items) < UInt64.size)
      (h : firstFailure? items = some e) : TellsChange items (.error e)
  /-- Whether a count is positive. -/
  | told {changed : Bool} (hfits : RowsAffected.total (countsIn items) < UInt64.size)
      (hnone : firstFailure? items = none)
      (hchanged : changed = true ↔ ∃ n ∈ countsIn items, 0 < n.rows) :
    TellsChange items (.ok changed)

namespace ReadsRun

variable {x : Executor σ}

theorem rows_eq (h : x.ReadsRun) (st : Statement) (s : σ) :
    x.rows st s = (unlessFailed (x.run st s).1 (rowsIn (x.run st s).1), (x.run st s).2) := by
  unfold rows
  rw [h.fetch]
  exact congrArg (·, (x.run st s).2) (collected_rowStream _)

theorem execute_eq (h : x.ReadsRun) (st : Statement) (s : σ) :
    x.execute st s =
      (({} : RowsAffected).extend (countsInFront (x.run st s).1) >>= unlessFailed (x.run st s).1,
        (x.run st s).2) := by
  rw [h.execute, affectedOf_eq]

theorem execute_of_fits (h : x.ReadsRun) (st : Statement) (s : σ)
    (hfits : RowsAffected.total (countsInFront (x.run st s).1) < UInt64.size) :
    ∃ sum : RowsAffected, sum.IsSumOf (countsInFront (x.run st s).1) ∧
      x.execute st s = (unlessFailed (x.run st s).1 sum, (x.run st s).2) := by
  obtain ⟨sum, hextend, hsum⟩ := RowsAffected.extend_of_fits hfits
  refine ⟨sum, hsum, ?_⟩
  rw [h.execute_eq, hextend]
  rfl

theorem execute_of_overflows (h : x.ReadsRun) (st : Statement) (s : σ)
    (hlarge : UInt64.size ≤ RowsAffected.total (countsInFront (x.run st s).1)) :
    x.execute st s = (.error .countOverflow, (x.run st s).2) := by
  rw [h.execute_eq, RowsAffected.extend_of_overflows hlarge]
  rfl

theorem tellsChange (h : x.ReadsRun) (st : Statement) (s : σ) :
    TellsChange (x.run st s).1 ((x.count st s).1 >>= fun rows => .ok (decide (rows > 0))) := by
  unfold count
  by_cases hfits : RowsAffected.total (countsInFront (x.run st s).1) < UInt64.size
  · obtain ⟨sum, hsum, hexecute⟩ := h.execute_of_fits st s hfits
    rw [hexecute]
    unfold unlessFailed
    cases hfailure : firstFailure? (x.run st s).1 with
    | some e => exact .failed hfits hfailure
    | none =>
      rw [countsInFront_eq hfailure] at hfits hsum
      refine .told hfits hfailure ?_
      rw [decide_eq_true_iff]
      exact hsum.pos_iff
  · have hlarge := Nat.not_lt.mp hfits
    rw [h.execute_of_overflows st s hlarge]
    exact .faulted hlarge

end ReadsRun

end Executor

/-! ## Calls that change rows -/

open Executor (TellsChange firstFailure? rowsIn countsIn countsInFront unlessFailed)

/-- The call tells by the stream of its statement whether rows were changed, when the checks in
    front of the statement pass. -/
def Act.TellsChange {σ : Type} (x : Executor σ) (call : Act σ Bool) (a : Session σ)
    (checked : Except Error (Exchange Bool)) : Prop :=
  ∀ ex, checked = .ok ex →
    ∃ answer a', call a = ended answer a' ∧
      Executor.TellsChange (x.run ex.statement a.executor).1 answer

theorem Act.SendsOnce.tellsChange {σ : Type} {x : Executor σ} (hreads : x.ReadsRun)
    {call : Act σ Bool} {a : Session σ} {checked : Except Error (Exchange Bool)}
    (hsends : SendsOnce x call a checked) (hasks : ∀ ex, checked = .ok ex → ex.AsksChange) :
    Act.TellsChange x call a checked := by
  rintro ex rfl
  obtain ⟨w, hw⟩ := hsends
  obtain ⟨st, rfl⟩ := hasks ex rfl
  exact ⟨_, _, hw, hreads.tellsChange st a.executor⟩

theorem Exchange.asksChange_deleteWhere {s : Setting} {c : Catalog} {e : EntityType}
    {p : Option Predicate} {ex : Exchange Bool} (h : deleteWhere s c e p = .ok ex) :
    ex.AsksChange := by
  obtain ⟨plan, -, h⟩ := bind_eq_ok_iff.mp h
  exact ⟨_, (Except.ok.inj h).symm⟩

/-- For every executor that leaves the reading to its stream, whatever the stream: a failure in it
    is the answer to a request of rows, and it is the first one; without a failure, the rows are
    answered in the order of the stream. A request of counts ends with the overflow just when 64
    bits do not hold the sum of the counts in front of the first failure. Otherwise the first
    failure is the answer, or else the exact sum of all counts, with the last identifier that is
    known. An update, a deletion by key and one by condition then answer whether a count is
    positive. -/
theorem streams_are_added_in_64_bits {σ ε : Type} (db : Database σ) (E : Entity ε)
    (hreads : db.executor.ReadsRun) (a : Session σ) :
    (∀ st s, let items := (db.executor.run st s).1
      firstFailure? (db.executor.fetch st s).1 = firstFailure? items ∧
      (firstFailure? items = none → (db.executor.fetch st s).1 = (rowsIn items).map .ok) ∧
      db.executor.rows st s = (unlessFailed items (rowsIn items), (db.executor.run st s).2)) ∧
    (∀ st s, let items := (db.executor.run st s).1
      (RowsAffected.total (countsInFront items) < UInt64.size →
        ∃ sum : RowsAffected, sum.IsSumOf (countsInFront items) ∧
          db.executor.execute st s = (unlessFailed items sum, (db.executor.run st s).2)) ∧
      (UInt64.size ≤ RowsAffected.total (countsInFront items) →
        db.executor.execute st s = (.error .countOverflow, (db.executor.run st s).2)) ∧
      (firstFailure? items = none → countsInFront items = countsIn items)) ∧
    (∀ e excludeAssigned, Act.TellsChange db.executor (db.update E e excludeAssigned) a
      (Exchange.update db.setting a.workspace.catalog E e excludeAssigned)) ∧
    (∀ e, Act.TellsChange db.executor (db.delete E e) a
      (Exchange.delete db.setting a.workspace.catalog E e)) ∧
    ∀ e p, Act.TellsChange db.executor (db.deleteWhere e p) a
      (Exchange.deleteWhere db.setting a.workspace.catalog e p) := by
  refine ⟨?_, ?_, ?_, ?_, ?_⟩
  · intro st s items
    rw [hreads.fetch]
    exact ⟨Executor.firstFailure?_rowStream items, Executor.rowStream_eq, hreads.rows_eq st s⟩
  · intro st s items
    exact ⟨hreads.execute_of_fits st s, hreads.execute_of_overflows st s,
      Executor.countsInFront_eq⟩
  · intro e excludeAssigned
    refine (db.sendsOnce_update E a e excludeAssigned).tellsChange hreads fun ex hex => ?_
    rw [Exchange.update_eq_ofKind] at hex
    exact (Exchange.asksChange_ofKind hex).2
  · intro e
    refine (db.sendsOnce_delete E a e).tellsChange hreads fun ex hex => ?_
    rw [Exchange.delete_eq_ofKind] at hex
    exact (Exchange.asksChange_ofKind hex).2
  · intro e p
    exact (db.sendsOnce_deleteWhere a e p).tellsChange hreads
      fun ex hex => Exchange.asksChange_deleteWhere hex

/-! ## A sample -/

namespace Samples

/-- People above three years. -/
def grown : Predicate := .field age .gt (.int32 3) false

/-- A connection that answers with these rows and counts. -/
def answering (items : List ResultItem) : Session Recorder where
  executor := ({} : Recorder).respond (.items items)

/-- The deletion of the people above three years. -/
def grownDeletion : Exchange Bool :=
  .count ⟨"DELETE FROM \"Person\" WHERE (\"Person\".\"age\" > @age_0)", ⟨[("age_0", .int32 3)]⟩⟩
    fun rows => .ok (decide (rows > 0))

theorem deleteWhere_grown (items : List ResultItem) :
    Exchange.deleteWhere peopleUnsplit.setting (answering items).workspace.catalog ⟨"Person"⟩
      (some grown) = .ok grownDeletion := by
  rfl

end Samples

/-- One of two counts is positive, and they add up to it. -/
theorem streams_are_added_in_64_bits_people :
    Samples.peopleUnsplit.executor.ReadsRun ∧
      ∃ a', Samples.peopleUnsplit.deleteWhere ⟨"Person"⟩ (some Samples.grown)
        (Samples.answering [.affected ⟨0, some 7⟩, .row Samples.child, .affected ⟨2, none⟩]) =
          .ok true a' := by
  have hreads : Samples.peopleUnsplit.executor.ReadsRun := Executor.readsRun_run Recorder.run _
  refine ⟨hreads, ?_⟩
  obtain ⟨-, -, -, -, htells⟩ := streams_are_added_in_64_bits Samples.peopleUnsplit
    (Samples.all.entity "Ticket") hreads
    (Samples.answering [.affected ⟨0, some 7⟩, .row Samples.child, .affected ⟨2, none⟩])
  obtain ⟨answer, a', hcall, hanswer⟩ := htells _ _ _ (Samples.deleteWhere_grown _)
  cases hanswer with
  | faulted hlarge => exact absurd hlarge (by decide)
  | failed _ hfailure => cases hfailure
  | told _ _ hchanged =>
    obtain rfl := hchanged.mpr ⟨⟨2, none⟩, by decide, by decide⟩
    exact ⟨a', hcall⟩

/-- Two counts of 2⁶³ are both positive, and the deletion ends with the overflow. -/
theorem large_counts_overflow :
    (∀ n ∈ [(⟨0x8000000000000000, none⟩ : RowsAffected), ⟨0x8000000000000000, none⟩],
      0 < n.rows) ∧
    ∃ a', Samples.peopleUnsplit.deleteWhere ⟨"Person"⟩ (some Samples.grown)
        (Samples.answering
          [.affected ⟨0x8000000000000000, none⟩, .affected ⟨0x8000000000000000, none⟩]) =
      .error .countOverflow a' := by
  exact ⟨by decide, _, rfl⟩

end EntitySql
