import LinProg.Backend.Options
import Mathlib.Logic.Basic

namespace LinProg

inductive OptionCall where
  | set (key : String) (value : OptionValue)
  | presolve (p : Presolve)
  | algorithm (a : Algorithm)
  | gap (x : Float)
  | threads (n : UInt32)
  | timeLimit (seconds : Float)

namespace OptionCall

variable {α : Type}

def call (o : Options) : OptionCall → Except (SolverError α) Options
  | .set key value => .ok (o.set key value)
  | .presolve p => .ok (o.withPresolve p)
  | .algorithm a => .ok (o.withAlgorithm a)
  | .gap x => o.withGap x
  | .threads n => .ok (o.withThreads n.toNat)
  | .timeLimit seconds => .ok (o.withTimeLimit seconds)

def run (calls : List OptionCall) : Except (SolverError α) Options :=
  calls.foldlM call .empty

def key : OptionCall → String
  | .set key _ => key
  | .presolve _ => "presolve"
  | .algorithm _ => "solver"
  | .gap _ => "mip_rel_gap"
  | .threads _ => "threads"
  | .timeLimit _ => "time_limit"

def given : OptionCall → OptionValue
  | .set _ value => value
  | .presolve p => .text p.text
  | .algorithm a => .text a.text
  | .gap x => .number x
  | .threads n => .count n.toNat
  | .timeLimit seconds => .number seconds

/-- What is stored of the value that is given: of a word without a sign the one of the same bits
that has a sign. -/
def stored : OptionCall → OptionValue
  | .threads n => .count (if n.toNat < 2147483648 then n.toNat else n.toNat - 4294967296)
  | c => c.given

def Fails : OptionCall → Prop
  | .gap x => Options.isNegative x = true ∨ Scalar.isFinite x = false
  | _ => False

def Wraps : OptionCall → Prop
  | .threads n => 2147483648 ≤ n.toNat
  | _ => False

def last? (key : String) (calls : List OptionCall) : Option OptionCall :=
  (calls.filter (·.key == key)).getLast?

theorem bmod_word (n : UInt32) : Int.bmod n.toNat (Nat.pow 2 32) =
    if n.toNat < 2147483648 then (n.toNat : Int) else n.toNat - 4294967296 := by
  have hword : n.toNat < 4294967296 := n.toNat_lt
  have hsize : Nat.pow 2 32 = 4294967296 := rfl
  rw [Int.bmod_def, hsize]
  omega

theorem call_ok {c : OptionCall} (h : ¬ c.Fails) (o : Options) :
    c.call o = (.ok (o.set c.key c.stored) : Except (SolverError α) Options) := by
  cases c with
  | threads n => rw [call, Options.withThreads, bmod_word]; rfl
  | gap x =>
    have htaken : (Options.isNegative x || !Scalar.isFinite x) = false := by
      simpa [Fails] using h
    rw [call, Options.withGap, htaken]
    rfl
  | set | presolve | algorithm | timeLimit => rfl

theorem call_refused {c : OptionCall} (h : c.Fails) (o : Options) :
    ∃ e, c.call o = (.error e : Except (SolverError α) Options) := by
  cases c with
  | gap x =>
    have hrefused : (Options.isNegative x || !Scalar.isFinite x) = true := by
      simpa [Fails] using h
    rw [call, Options.withGap, hrefused]
    exact ⟨_, rfl⟩
  | set | presolve | algorithm | threads | timeLimit => exact h.elim

theorem stored_eq_given_iff (c : OptionCall) : c.stored = c.given ↔ ¬ c.Wraps := by
  cases c with
  | threads n =>
    rw [stored, given, Wraps, OptionValue.count.injEq]
    have hword : n.toNat < 4294967296 := n.toNat_lt
    omega
  | set | presolve | algorithm | gap | timeLimit => exact iff_of_true rfl not_false

def storeAll (o : Options) (calls : List OptionCall) : Options :=
  calls.foldl (fun o c => o.set c.key c.stored) o

theorem foldlM_ok {calls : List OptionCall} (h : ∀ c ∈ calls, ¬ c.Fails) (o : Options) :
    calls.foldlM call o = (.ok (storeAll o calls) : Except (SolverError α) Options) := by
  induction calls generalizing o with
  | nil => rfl
  | cons c calls ih =>
    obtain ⟨hc, hcalls⟩ := List.forall_mem_cons.1 h
    rw [List.foldlM_cons, call_ok hc]
    exact ih hcalls _

theorem foldlM_refused {calls : List OptionCall} (h : ∃ c ∈ calls, c.Fails) (o : Options) :
    ∃ e, calls.foldlM call o = (.error e : Except (SolverError α) Options) := by
  induction calls generalizing o with
  | nil => simp at h
  | cons c calls ih =>
    rw [List.foldlM_cons]
    by_cases hc : c.Fails
    · obtain ⟨e, he⟩ := call_refused (α := α) hc o
      rw [he]
      exact ⟨e, rfl⟩
    · rw [call_ok hc]
      exact ih (by simpa [hc] using h) _

theorem last?_cons (key : String) (c : OptionCall) (calls : List OptionCall) :
    last? key (c :: calls) =
      if c.key = key then some ((last? key calls).getD c) else last? key calls := by
  by_cases h : c.key = key
  · simp [last?, h, List.getLast?_cons]
  · simp [last?, h]

theorem get?_storeAll (calls : List OptionCall) (o : Options) (key : String) :
    (storeAll o calls).get? key = ((last? key calls).map stored).or (o.get? key) := by
  induction calls generalizing o with
  | nil => rfl
  | cons c calls ih =>
    rw [storeAll, List.foldl_cons, ← storeAll, ih, Options.get?_set, last?_cons]
    by_cases hkey : c.key = key
    · cases last? key calls <;> simp [hkey]
    · simp [hkey, Ne.symm hkey]

/-- Unless one of the calls fails, each option has the value of the last call for it, and none if
there is no such call. It is the value that was given, except that a number of threads that needs
all the bits of its word has become negative. -/
theorem options_keep_last (calls : List OptionCall) :
    ((∃ c ∈ calls, c.Fails) → ∃ e, run calls = (.error e : Except (SolverError α) Options)) ∧
    ((∀ c ∈ calls, ¬ c.Fails) → ∃ o, run calls = (.ok o : Except (SolverError α) Options) ∧
      ∀ key, o.get? key = (last? key calls).map stored ∧
        ∀ c, last? key calls = some c → (o.get? key = some c.given ↔ ¬ c.Wraps)) := by
  refine ⟨fun h => foldlM_refused h .empty, fun h => ⟨_, foldlM_ok h .empty, fun key => ?_⟩⟩
  have hget : (storeAll .empty calls).get? key = (last? key calls).map stored := by
    rw [get?_storeAll, Options.get?, Options.empty, List.lookup_nil, Option.or_none]
  refine ⟨hget, fun c hc => ?_⟩
  rw [hget, hc, Option.map_some, Option.some.injEq, stored_eq_given_iff]

/-- Calls of both ways for the same options, and the first number of threads that is not kept; and
a gap with the sign of a zero, which fails. -/
theorem options_keep_last_of_both_ways :
    let calls := [threads 4, set "presolve" (.flag true), gap 0.5, presolve .on,
      set "threads" (.count 8), set "mip_rel_gap" (.number 1), threads 2147483648]
    (∀ c ∈ calls, ¬ c.Fails) ∧
      (∃ o, run calls = (.ok o : Except (SolverError Float) Options) ∧
        o.get? "presolve" = some (.text "on") ∧ o.get? "mip_rel_gap" = some (.number 1) ∧
        o.get? "threads" = some (.count (-2147483648)) ∧ o.get? "solver" = none) ∧
      ∃ e, run [gap (-0)] = (.error e : Except (SolverError Float) Options) := by
  intro calls
  have hgap : ¬ (gap 0.5).Fails := by
    rw [Fails]
    decide +kernel
  have hcalls : ∀ c ∈ calls, ¬ c.Fails := by
    simpa [calls, Fails] using hgap
  obtain ⟨o, ho, hkeys⟩ := (options_keep_last calls).2 hcalls
  have hminus : (gap (-0)).Fails := .inl (by decide +kernel)
  exact ⟨hcalls, ⟨o, ho, (hkeys "presolve").1, (hkeys "mip_rel_gap").1, (hkeys "threads").1,
    (hkeys "solver").1⟩, (options_keep_last [gap (-0)]).1 ⟨_, List.mem_singleton_self _, hminus⟩⟩

theorem most_threads_wrap :
    ∃ o, run [threads 4294967295] = (.ok o : Except (SolverError Float) Options) ∧
      o.get? "threads" = some (.count (-1)) ∧
      o.get? "threads" ≠ some (threads 4294967295).given := by
  have hcalls : ∀ c ∈ [threads 4294967295], ¬ c.Fails := by simp [Fails]
  refine ⟨_, foldlM_ok hcalls .empty, rfl, fun h => ?_⟩
  have hcount := OptionValue.count.inj (Option.some.inj h)
  exact absurd hcount (by decide)

end OptionCall

end LinProg
