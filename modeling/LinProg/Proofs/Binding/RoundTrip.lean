import LinProg.Proofs.Binding.Reachable
import Mathlib.Algebra.GroupWithZero.Nat

/-!
Rows that are appended and removed again. As long as no more rows are removed than were appended, a
binding keeps all that it had below them, so it is as before once all of them are gone. Range values
may have come into being in between; they are then 0 and change no interval.
-/

namespace LinProg

variable {α : Type} [Scalar α] {B : Backend α}

def Command.Builds (b : Binding B) : Command α → Prop
  | .probe p => (p.call b).Returned
  | c => c.scope?.isSome = true ∧ (c.call b).result.isOk = true

namespace Binding

def GoThrough (b : Binding B) : List (Command α) → Prop
  | [] => True
  | c :: cs => (c.call b).result.isOk = true ∧ (c.call b).state.GoThrough cs

def Builds (b : Binding B) : List (Command α) → Prop
  | [] => True
  | c :: cs => c.Builds b ∧ (c.call b).state.Builds cs

def height (cs : List (Command α)) : Nat :=
  (cs.flatMap Command.constraints).length

@[simp] theorem height_cons (c : Command α) (cs : List (Command α)) :
    height (c :: cs) = c.constraints.length + height cs := by
  simp [height]

/-- `b'` is `b` with `k` more rows at the end of the session, which the problem may have too. -/
structure Above (b : Binding B) (k : Nat) (b' : Binding B) : Prop where
  aligned : b'.Aligned
  name : b'.name = b.name
  closed : b'.session.closed = b.session.closed
  frame : b'.problem.frame = b.problem.frame
  ranges : b'.problem.ranges = none → b.problem.ranges = none
  rows : b'.session.model.rows.take b.shared.length = b.session.model.rows
  shared : b'.shared.take b.shared.length = b.shared
  length : b'.shared.length = b.shared.length + k

variable {b b' b'' : Binding B} {k : Nat}

theorem Aligned.above (h : b.Aligned) : b.Above 0 b where
  aligned := h
  name := rfl
  closed := rfl
  frame := rfl
  ranges := id
  rows := by simp [h.shared]
  shared := by simp
  length := rfl

namespace Above

theorem of_unmoved (h : b.Above k b') (hb : b'.Unmoved b'') : b.Above k b'' where
  aligned := h.aligned.of_unmoved hb
  name := hb.name.trans h.name
  closed := hb.session.closed.trans h.closed
  frame := hb.problem ▸ h.frame
  ranges := hb.problem ▸ h.ranges
  rows := hb.session.model ▸ h.rows
  shared := hb.shared ▸ h.shared
  length := hb.shared ▸ h.length

theorem withConstraint (h : b.Above k b') (scope : RowScope) (c : Constraint α) :
    b.Above (k + 1) (b'.withConstraint scope c) where
  aligned := h.aligned.withConstraint scope c
  name := h.name
  closed := h.closed
  frame := (Problem.frame_pushRows _ _).trans h.frame
  ranges := fun hnone => h.ranges (Problem.ranges_pushRows_eq_none.1 hnone).1
  rows := by
    have hlength : b.shared.length ≤ b'.session.model.rows.length := by
      rw [← h.aligned.shared, h.length]
      exact Nat.le_add_right _ k
    exact (List.take_append_of_le_length hlength).trans h.rows
  shared := by
    have hlength : b.shared.length ≤ b'.shared.length := h.length ▸ Nat.le_add_right _ k
    exact (List.take_append_of_le_length hlength).trans h.shared
  length := by
    rw [← Nat.add_assoc, ← h.length]
    exact List.length_append

theorem withConstraints (h : b.Above k b') (scope : RowScope) (cs : List (Constraint α)) :
    b.Above (k + cs.length) (b'.withConstraints scope cs) := by
  induction cs generalizing k b' with
  | nil => exact h
  | cons c cs ih =>
    have hrest := ih (h.withConstraint scope c)
    rw [Nat.add_right_comm] at hrest
    exact hrest

theorem withoutLast (h : b.Above k b') {n : Nat} (hn : n ≤ k) :
    b.Above (k - n) (b'.withoutLast n) := by
  have hstart : b.shared.length ≤ b'.shared.length - n := by
    have := h.length
    omega
  exact {
    aligned := h.aligned.withoutLast n
    name := h.name
    closed := h.closed
    frame := (Problem.frame_dropLast _ _).trans h.frame
    ranges := fun hnone => h.ranges (Option.map_eq_none_iff.1 hnone)
    rows := by
      change (b'.session.model.rows.take (b'.shared.length - n)).take b.shared.length = _
      rw [List.take_take, Nat.min_eq_left hstart]
      exact h.rows
    shared := by
      change (b'.shared.take (b'.shared.length - n)).take b.shared.length = _
      rw [List.take_take, Nat.min_eq_left hstart]
      exact h.shared
    length := by
      change (b'.shared.take (b'.shared.length - n)).length = _
      rw [List.length_take, h.length]
      omega }

theorem call (h : b.Above k b') {c : Command α} (hc : c.Builds b') :
    b.Above (k + c.constraints.length) (c.call b').state := by
  have happend {scope : RowScope} (hs : c.scope? = some scope)
      (hok : (c.call b').result.isOk = true) :
      b.Above (k + c.constraints.length) (c.call b').state := by
    obtain ⟨-, a, es, hcall⟩ | ⟨-, e, hcall⟩ := Command.appendsAt h.aligned hs
    · rw [hcall]
      exact h.withConstraints scope c.constraints
    · rw [hcall] at hok
      cases hok
  cases c with
  | probe p => exact h.of_unmoved (p.call_unmoved h.aligned hc)
  | addConstraint | addConstraints | addComparison | addBound => exact happend rfl hc.2
  | _ => cases hc.1

theorem after (h : b.Above k b') {cs : List (Command α)} (hcs : b'.Builds cs) :
    b.Above (k + height cs) (b'.after cs) := by
  induction cs generalizing k b' with
  | nil => exact h
  | cons c cs ih =>
    have hrest := ih (h.call hcs.1) hcs.2
    rwa [Nat.add_assoc, ← height_cons] at hrest

theorem removals (h : b.Above k b') {ns : List Nat} (hns : ns.sum ≤ k) :
    b'.GoThrough (ns.map .removeLast) ∧
      b.Above (k - ns.sum) (b'.after (ns.map .removeLast)) := by
  induction ns generalizing k b' with
  | nil => exact ⟨trivial, h⟩
  | cons n ns ih =>
    rw [List.sum_cons] at hns
    have hn : n ≤ b'.shared.length := by
      rw [h.length]
      omega
    have hcall : (Command.removeLast n : Command α).call b' =
        ⟨.ok .done, b'.withoutLast n, [.rowsRemoved b'.name n]⟩ :=
      Call.bind_eq (removeLast_apply h.aligned hn) rfl
    have hrest := ih (h.withoutLast (n := n) (by omega)) (by omega)
    rw [List.map_cons, GoThrough, after_cons, hcall, List.sum_cons, ← Nat.sub_sub]
    exact ⟨⟨rfl, hrest.1⟩, hrest.2⟩

end Above

/-- Both sides are as before, but the problem may have got range values, which are 0. -/
structure Restored (b b' : Binding B) : Prop where
  name : b'.name = b.name
  model : b'.session.model = b.session.model
  closed : b'.session.closed = b.session.closed
  shared : b'.shared = b.shared
  problem : b'.problem.withRanges b.problem.ranges = b.problem
  ranges : b'.problem.ranges = b.problem.ranges ∨
    b.problem.ranges = none ∧ b'.problem.ranges = some (List.replicate b.problem.numRows 0)
  intervals : ∀ row, b'.problem.rowInterval? row = b.problem.rowInterval? row

theorem Above.restored (hb : b.Aligned) (h : b.Above 0 b') : b.Restored b' := by
  have hshared : b'.shared = b.shared := by
    have ht := h.shared
    rwa [← Nat.add_zero b.shared.length, ← h.length, List.take_length] at ht
  have hrows : b'.session.model.rows = b.session.model.rows := by
    have ht := h.rows
    rwa [← hshared, h.aligned.shared, List.take_length] at ht
  have hasRows : b'.problem.HasRows (chosen b.shared b.session.model.rows) := by
    rw [← hshared, ← hrows]
    exact h.aligned.rows
  exact {
    name := h.name
    model := by
      rw [h.aligned.model, hb.model, hrows]
      exact Problem.modelWith_of_frame h.frame _
    closed := h.closed
    shared := hshared
    problem := hb.rows.eq_of_frame hasRows h.frame
    ranges := hb.rows.ranges_cases hasRows h.ranges
    intervals := fun row => by rw [hasRows.rowInterval?_eq, hb.rows.rowInterval?_eq] }

/-- However many rows some calls append, on both sides or on the session alone and with probes in
between, removals of as many rows in any portions go through and restore the binding. -/
theorem appended_rows_removed (h : b.Reachable) {cs : List (Command α)} (hcs : b.Builds cs)
    {ns : List Nat} (hns : ns.sum = height cs) :
    (b.after cs).numRows = b.numRows + height cs ∧
      (b.after cs).GoThrough (ns.map .removeLast) ∧
      b.Restored ((b.after cs).after (ns.map .removeLast)) := by
  have habove := h.aligned.above.after hcs
  rw [Nat.zero_add] at habove
  obtain ⟨hgo, hback⟩ := habove.removals (Nat.le_of_eq hns)
  rw [hns, Nat.sub_self] at hback
  exact ⟨habove.length, hgo, hback.restored h.aligned⟩

/-- Rows with and without a range value, on one side and on both, a comparison of a column with
itself, and a probe; they are removed in other portions. -/
theorem bare_rows_removed :
    let cs := [.addConstraints [⟨[(0, 1)], .range, 0, some 1⟩, .bound 0 .lessEq 1] .both,
      .addComparison 0 .equal 0 .both, .probe .solve, .addBound 0 .greaterEq 0 .sessionOnly]
    let ns := [1, 0, 2]
    bare.Reachable ∧ bare.Builds cs ∧ ns.sum = height cs ∧
      (bare.after cs).numRows = bare.numRows + 3 ∧
      (bare.after cs).GoThrough (ns.map .removeLast) ∧
      bare.Restored ((bare.after cs).after (ns.map .removeLast)) := by
  intro cs ns
  have hcs : bare.Builds cs := by
    refine ⟨⟨rfl, rfl⟩, ⟨rfl, rfl⟩, Reply.returned_of_isOk ?_, ⟨rfl, ?_⟩, trivial⟩
    · decide +kernel
    · decide +kernel
  exact ⟨bare_reachable, hcs, rfl, appended_rows_removed bare_reachable hcs rfl⟩

end Binding

end LinProg
