import LinProg.Proofs.Sampler.InRange
import LinProg.Proofs.Sampler.Inside
import LinProg.Proofs.Session.Answer

namespace LinProg

variable {α : Type} [Scalar α] {B : Backend α} {G : Type}

namespace Sampler

variable {p : Problem α} {rows : List (ModelRow α)} {line line' : Option (Line α)}
  {s t : Sampler B G}

/-- Set up in the same way, and about to draw the same numbers. -/
structure SameSetup (s t : Sampler B G) : Prop where
  closed : s.binding.session.closed = t.binding.session.closed
  start : s.start = t.start
  linked : s.linked = t.linked
  config : s.config = t.config
  generator : s.generator = t.generator

structure Alike (p : Problem α) (rows : List (ModelRow α)) (line line' : Option (Line α))
    (s t : Sampler B G) : Prop extends SameSetup s t where
  left : OnLine p rows line s
  right : OnLine p rows line' t

theorem Alike.dimension (h : Alike p rows line line' s t) : s.dimension = t.dimension :=
  h.left.dimension.trans h.right.dimension.symm

theorem Alike.model (h : Alike p rows line line s t) :
    s.binding.session.model = t.binding.session.model :=
  h.left.model.trans h.right.model.symm

theorem agrees_solveLine (hB : B.Memoryless) (origin direction : List α) (n : Nat) :
    Call.Agrees (Alike p rows line line)
      (solveLine origin direction n : SamplerCall B G (List α)) := by
  have hsolve : Call.Agrees (Alike p rows line line)
      (onBinding Binding.solve : SamplerCall B G (Solution α)) := by
    intro s t h
    have hresult := Session.solve_congr hB h.model h.closed
    have hs := Binding.solve_unmoved s.binding
    have ht := Binding.solve_unmoved t.binding
    refine ⟨?_, ⟨?_, h.start, h.linked, h.config, h.generator⟩, h.left.of_unmoved hs,
      h.right.of_unmoved ht⟩
    · simp only [onBinding, Binding.solve, Binding.onSession, Call.on_apply, hresult]
    · exact hs.session.closed.trans (h.closed.trans ht.session.closed.symm)
  refine Call.agrees_bind hsolve fun solution => ?_
  split
  · exact Call.agrees_pure _
  · exact Call.agrees_bind (Call.agrees_emit _) fun _ => Call.agrees_fail _

def AnyLines (p : Problem α) (rows : List (ModelRow α)) (s t : Sampler B G) : Prop :=
  ∃ line line', Alike p rows line line' s t

theorem agrees_set {f : Sampler B G → Sampler B G} (hb : ∀ s, (f s).binding = s.binding)
    (hd : ∀ s, (f s).dimension = s.dimension) (hr : ∀ s, (f s).baseRows = s.baseRows)
    (hf : ∀ s t, SameSetup s t → SameSetup (f s) (f t)) :
    Call.Agrees (AnyLines p rows) (Call.modify f : SamplerCall B G Unit) := by
  refine Call.agrees_modify fun s t ⟨line, line', h⟩ => ⟨line, line', hf s t h.toSameSetup, ?_, ?_⟩
  · exact h.left.of_eq (hb s) (hd s) (hr s)
  · exact h.right.of_eq (hb t) (hd t) (hr t)

theorem agrees_setGenerator (generator : G) : Call.Agrees (AnyLines p rows)
    (Call.modify ({ · with generator }) : SamplerCall B G Unit) :=
  agrees_set (fun _ => rfl) (fun _ => rfl) (fun _ => rfl) fun _ _ h =>
    ⟨h.closed, h.start, h.linked, h.config, rfl⟩

theorem agrees_direction [Root α] (R : Randomness α G) :
    Call.Agrees (AnyLines p rows) (direction R : SamplerCall B G (List α)) := by
  refine Call.agrees_state_bind (fun s t ⟨line, line', h⟩ => ?_) fun s => ?_
  · simp only [h.dimension, h.generator, h.config, h.linked]
  · exact Call.agrees_bind (agrees_setGenerator _) fun _ => Call.agrees_ofOption _

theorem agrees_uniform (R : Randomness α G) :
    Call.Agrees (AnyLines p rows) (uniform R : SamplerCall B G α) := by
  refine Call.agrees_state_bind (fun s t ⟨line, line', h⟩ => ?_) fun s => ?_
  · simp only [h.generator]
  · exact Call.agrees_bind (agrees_setGenerator _) fun _ => Call.agrees_pure _

variable [LawfulScalar α]

/-- Both samplers write the same line over their own. -/
theorem agrees_lineIntersection (hB : B.Memoryless) (origin direction : List α) :
    Call.Agrees (AnyLines p rows)
      (lineIntersection origin direction : SamplerCall B G (List α)) := by
  rintro s t ⟨line, line', h⟩
  by_cases hl : origin.length = p.columns ∧ direction.length = p.columns
  · obtain ⟨b, hb, hengine, hcall⟩ := lineIntersection_apply h.left hl.1 hl.2
    obtain ⟨b', hb', hengine', hcall'⟩ := lineIntersection_apply h.right hl.1 hl.2
    have hclosed : b.session.closed = b'.session.closed :=
      hengine.closed.trans (h.closed.trans hengine'.closed.symm)
    have hwritten : Alike p rows (some (origin, direction)) (some (origin, direction))
        { s with binding := b } { t with binding := b' } :=
      ⟨⟨hclosed, h.start, h.linked, h.config, h.generator⟩, hb, hb'⟩
    obtain ⟨hresult, hstate⟩ :=
      agrees_solveLine hB origin direction p.columns _ _ hwritten
    rw [hcall, hcall']
    exact ⟨hresult, _, _, hstate⟩
  · obtain ⟨_, _, -, he⟩ := lineIntersection_refused hl
    rw [he line s h.left, he line' t h.right]
    exact ⟨rfl, line, line', h⟩

section Walk

variable [Root α] (R : Randomness α G) (hB : B.Memoryless)

include hB

theorem agrees_step (current : List α) :
    Call.Agrees (AnyLines p rows) (step R current : SamplerCall B G (List α)) := by
  refine Call.agrees_bind (agrees_direction R) fun d => ?_
  refine Call.agrees_bind (agrees_lineIntersection hB current d) fun boundary => ?_
  refine Call.agrees_bind (agrees_uniform R) fun u => ?_
  exact Call.agrees_bind (Call.agrees_emit _) fun _ => Call.agrees_pure _

theorem agrees_stepsFrom (n : Nat) (current : List α) :
    Call.Agrees (AnyLines p rows) (stepsFrom R n current : SamplerCall B G (List α)) := by
  induction n generalizing current with
  | zero => exact Call.agrees_pure current
  | succ n ih => exact Call.agrees_bind (agrees_step R hB current) ih

theorem agrees_walkFrom (start : List α) (steps : Nat) :
    Call.Agrees (AnyLines p rows) (walkFrom R start steps : SamplerCall B G (List α)) := by
  refine Call.agrees_state_bind (fun s t ⟨line, line', h⟩ => by rw [h.dimension]) fun s => ?_
  exact Call.agrees_bind (Call.agrees_require _ _) fun _ => agrees_stepsFrom R hB steps start

theorem agrees_walk : Call.Agrees (AnyLines p rows) (walk R : SamplerCall B G (List α)) :=
  Call.agrees_state_bind (fun s t ⟨line, line', h⟩ => by rw [h.start, h.config]) fun s =>
    agrees_walkFrom R hB s.start s.config.steps

theorem agrees_walks (n : Nat) :
    Call.Agrees (AnyLines p rows) (walks R n : SamplerCall B G (List (List α))) := by
  induction n with
  | zero => exact Call.agrees_pure []
  | succ n ih =>
    refine Call.agrees_bind (agrees_walk R hB) fun point => ?_
    exact Call.agrees_bind ih fun _ => Call.agrees_pure _

theorem agrees_sample (n : Nat) :
    Call.Agrees (AnyLines p rows) (sample R n : SamplerCall B G (List (List α))) := by
  refine Call.agrees_bind (agrees_walks R hB n) fun points => ?_
  refine Call.agrees_state_bind (fun s t ⟨line, line', h⟩ => ?_) fun s => ?_
  · simp only [h.dimension, h.config]
  · exact Call.agrees_bind (Call.agrees_emit _) fun _ => Call.agrees_pure points

end Walk

section Parts

variable [Root α] (R : Randomness α G)

omit [LawfulScalar α] in
theorem stepsFrom_add (i j : Nat) (current : List α) (s : Sampler B G) :
    stepsFrom R (i + j) current s = (stepsFrom R i current >>= stepsFrom R j) s := by
  induction i generalizing current s with
  | zero => rw [Nat.zero_add, stepsFrom, Call.pure_bind]
  | succ i ih =>
    rw [Nat.succ_add, stepsFrom, stepsFrom, Call.bind_assoc]
    exact Call.bind_congr fun next _ => ih next _

theorem walkFrom_add (h : Usable p rows s) (start : List α) (i j : Nat) :
    walkFrom R start (i + j) s = (walkFrom R start i >>= fun last => walkFrom R last j) s := by
  have hwalk (xs : List α) (n : Nat) (t : Sampler B G) (ht : t.dimension = xs.length) :
      walkFrom R xs n t = stepsFrom R n xs t := by
    have hb : (t.dimension == xs.length) = true := by simpa using ht
    rw [walkFrom, Call.state_bind, checkLength, hb, Call.require_true, Call.pure_bind]
  by_cases hs : s.dimension = start.length
  · have hends : Call.Ends (Usable p rows) (fun _ => True) (fun last => last.length = start.length)
        (stepsFrom R i start : SamplerCall B G (List α)) :=
      ends_stepsFrom R (fun _ _ _ _ _ _ => trivial) i start
    obtain ⟨hstate, -, hlength⟩ := hends s h
    have hrest : (stepsFrom R i start >>= fun last => walkFrom R last j) s =
        (stepsFrom R i start >>= stepsFrom R j) s := by
      refine Call.bind_congr fun last hlast => hwalk last j _ ?_
      rw [hstate.dimension, hlength last hlast, ← hs, h.dimension]
    rw [hwalk start _ s hs, stepsFrom_add, ← hrest, Call.bind_apply, Call.bind_apply,
      hwalk start _ s hs]
  · have hb : (s.dimension == start.length) = false := by simpa using hs
    have hrefused (n : Nat) : walkFrom R start n s =
        ⟨.error (.error (.problem (.length .startPoint s.dimension start.length))), s, []⟩ := by
      simp [walkFrom, checkLength, hb]
    rw [hrefused, Call.bind_of_error (hrefused i)]

omit [LawfulScalar α] in
theorem walks_add (n k : Nat) (s : Sampler B G) : walks R (n + k) s = (do
    let first ← walks R n
    let rest ← walks R k
    return first ++ rest) s := by
  induction n generalizing s with
  | zero =>
    rw [Nat.zero_add, walks, Call.pure_bind]
    exact (Call.bind_pure (walks R k) s).symm
  | succ n ih =>
    rw [Nat.succ_add, walks, walks, Call.bind_assoc]
    refine Call.bind_congr fun point _ => ?_
    rw [Call.bind_assoc, Call.bind_apply, ih, ← Call.bind_apply, Call.bind_assoc]
    refine Call.bind_congr fun first _ => ?_
    rw [Call.bind_assoc]
    rfl

omit [LawfulScalar α] in
theorem ending_sample (n : Nat) (s : Sampler B G) :
    (sample R n s).ending = (walks R n s).ending := by
  rw [← Call.bind_pure (walks R n) s]
  exact Call.ending_bind rfl fun points t => rfl

omit [LawfulScalar α] in
theorem sample_add (n k : Nat) (s : Sampler B G) : (sample R (n + k) s).ending =
    ((do
      let first ← sample R n
      let rest ← sample R k
      return first ++ rest) s).ending := by
  rw [ending_sample, walks_add]
  refine Call.ending_bind (ending_sample R n s).symm fun first t => ?_
  exact Call.ending_bind (ending_sample R k t).symm fun rest t => rfl

end Parts

/-- The same answer or the same error, and the same numbers to be drawn next. -/
def SameWalk {β : Type} (r r' : Reply (Event α) (SamplingError α) (Sampler B G) β) : Prop :=
  r.result = r'.result ∧ r.state.generator = r'.state.generator

omit [LawfulScalar α] in
theorem AnyLines.sameWalk (h : AnyLines p rows s t) {β : Type} {c : SamplerCall B G β}
    (hc : Call.Agrees (AnyLines p rows) c) : SameWalk (c s) (c t) := by
  obtain ⟨hresult, line, line', hstate⟩ := hc s t h
  exact ⟨hresult, hstate.generator⟩

omit [Scalar α] [LawfulScalar α] in
theorem linkGroups_apply {groups : List (List Nat)} (h : ∀ i ∈ groups.flatten, i < s.dimension) :
    linkGroups groups s = ⟨.ok (), { s with linked := groups }, []⟩ := by
  have hfind : groups.flatten.find? (s.dimension ≤ ·) = none :=
    List.find?_eq_none.2 fun i hi => by simpa using h i hi
  simp only [linkGroups, Call.state_bind, hfind, Call.modify_apply]

/-- Where runs depend on nothing but the model, an open sampler walks like a new one of the same
polytope, set up alike and with the same numbers to draw, whatever was called on it before and
whatever came of that. So samples can be drawn in portions and walks made in parts. -/
theorem walks_forget_the_past [Root α] (R : Randomness α G) (hB : B.Memoryless) (hp : p.Built)
    (hv : p.validate = .ok ()) (hs : Reached R p line s) :
    (s.binding.session.closed = false → ∀ (memory : B.Memory) (t₀ : Sampler B G),
      (new B memory s.generator p s.start s.config ()).result = .ok t₀ →
      ∃ t, linkGroups s.linked t₀ = ⟨.ok (), t, []⟩ ∧
        (∀ origin direction,
          SameWalk (lineIntersection origin direction s) (lineIntersection origin direction t)) ∧
        (∀ start steps, SameWalk (walkFrom R start steps s) (walkFrom R start steps t)) ∧
        SameWalk (walk R s) (walk R t) ∧
        ∀ n, SameWalk (sample R n s) (sample R n t)) ∧
    (∀ n k, (sample R (n + k) s).ending = ((do
      let first ← sample R n
      let rest ← sample R k
      return first ++ rest) s).ending) ∧
    ∀ start i j,
      walkFrom R start (i + j) s = (walkFrom R start i >>= fun last => walkFrom R last j) s := by
  obtain ⟨-, ⟨rows, hrows⟩, -⟩ := Problem.validate_eq_ok.1 hv
  have husable := hs.usable hp.matrixFits hv hrows
  refine ⟨fun hopen memory t₀ ht₀ => ?_, fun n k => sample_add R n k s, walkFrom_add R husable⟩
  have hnew := new_onLine hp.matrixFits hv hrows ht₀
  obtain ⟨b, hb, rfl⟩ := new_eq ht₀
  have halike : AnyLines p rows s
      ⟨b, p.columns, p.numRows, s.start, s.linked, s.config, s.generator⟩ :=
    ⟨line, none, ⟨hopen.trans hb.symm, rfl, rfl, rfl, rfl⟩, hs.onLine hp.matrixFits hv hrows,
      hnew.of_eq rfl rfl rfl⟩
  exact ⟨_, linkGroups_apply husable.linked,
    fun origin direction => halike.sameWalk (agrees_lineIntersection hB origin direction),
    fun start steps => halike.sameWalk (agrees_walkFrom R hB start steps),
    halike.sameWalk (agrees_walk R hB), fun n => halike.sameWalk (agrees_sample R hB n)⟩

theorem lineIntersection_setup (h : OnLine p rows line s) {origin direction : List α}
    (ho : origin.length = p.columns) (hd : direction.length = p.columns) :
    let t := (lineIntersection origin direction s).state
    t.start = s.start ∧ t.config = s.config ∧
      t.binding.session.closed = s.binding.session.closed := by
  obtain ⟨b, -, hengine, hcall⟩ := lineIntersection_apply h ho hd
  have hkeeps : Call.Keeps noteLine
      (fun _ (t : Sampler B G) => t.start = s.start ∧ t.config = s.config ∧
        t.binding.session.closed = s.binding.session.closed)
      (solveLine origin direction p.columns) := by
    refine keeps_solveLine (fun _ t b hb ht => ⟨ht.1, ht.2.1, ?_⟩) origin direction p.columns
    exact hb.session.closed.trans ht.2.2
  rw [hcall]
  exact hkeeps none _ ⟨rfl, rfl, hengine.closed⟩

def walkedOn : Call (Event Extended) (SamplingError Extended) Unit
    (List Extended × Sampler picked Unit) := do
  let s ← Sampler.new picked () () fromZeroToOne (exactly [1 / 2]) ⟨2, .squaredLength, none, false⟩
  let (_, s) ← Call.within s (lineIntersection (exactly [1 / 2]) [1])
  Call.within s (walk halves)

/-- A sampler that was on a line before, and walks to a point all the same. -/
theorem fromZeroToOne_forgets_the_past :
    fromZeroToOne.Built ∧ fromZeroToOne.validate = .ok () ∧ picked.Memoryless ∧
      ∃ (s t₀ t : Sampler picked Unit) (x : List Extended),
        Reached halves fromZeroToOne (some (exactly [1 / 2], [1])) s ∧
        s.binding.session.closed = false ∧
        (new picked () s.generator fromZeroToOne s.start s.config ()).result = .ok t₀ ∧
        linkGroups s.linked t₀ = ⟨.ok (), t, []⟩ ∧
        (walk halves s).result = .ok x ∧ (walk halves t).result = .ok x ∧
        (∀ n, SameWalk (sample halves n s) (sample halves n t)) ∧
        ∀ n k, (sample halves (n + k) s).ending = ((do
          let first ← sample halves n
          let rest ← sample halves k
          return first ++ rest) s).ending := by
  have hvalid : fromZeroToOne.validate = .ok () := rfl
  have hmemory : picked.Memoryless := fun _ _ _ => rfl
  have hm := fromZeroToOne_built.matrixFits
  have hlength : (exactly [1 / 2]).length = fromZeroToOne.columns := rfl
  have hlength' : ([1] : List Extended).length = fromZeroToOne.columns := rfl
  obtain ⟨-, ⟨rows, hrows⟩, -⟩ := Problem.validate_eq_ok.1 hvalid
  obtain ⟨⟨x, s'⟩, hx⟩ := exists_of_isOk (x := (walkedOn ()).result) (by decide +kernel)
  obtain ⟨s₀, hs₀, hx⟩ := Call.result_bind_eq_ok hx
  obtain ⟨⟨y, s⟩, hline, hx⟩ := Call.result_bind_eq_ok hx
  obtain rfl : (lineIntersection (exactly [1 / 2]) [1] s₀).state = s :=
    (Call.result_within_eq_ok hline).2
  have hs := (Reached.new (R := halves) hs₀).setLine hm hvalid hlength hlength'
  have hsetup := lineIntersection_setup (new_onLine hm hvalid hrows hs₀) hlength hlength'
  rw [SamplerCommand.call, Call.bind_pure_apply] at hs
  generalize (lineIntersection (exactly [1 / 2]) [1] s₀).state = s at hs hsetup hx
  obtain ⟨b, hb, rfl⟩ := new_eq hs₀
  obtain ⟨hstart, hconfig, hclosed⟩ := hsetup
  have hopen : s.binding.session.closed = false := hclosed.trans hb
  obtain ⟨hfresh, hsample, -⟩ :=
    walks_forget_the_past halves hmemory fromZeroToOne_built hvalid hs
  have hstart' : s.start.length = fromZeroToOne.columns := hstart ▸ hlength
  have hverify : s.config.verifyStart = false := hconfig ▸ rfl
  obtain ⟨t₀, ht₀⟩ := new_ok (B := picked) () s.generator () hm hvalid hstart' hverify
  obtain ⟨t, ht, -, -, hwalk, hsame⟩ := hfresh hopen () t₀ ht₀
  have hanswer : (walk halves s).result = .ok x := (Call.result_within_eq_ok hx).1
  exact ⟨fromZeroToOne_built, hvalid, hmemory, s, t₀, t, x, hs, hopen, ht₀, ht, hanswer,
    hwalk.1 ▸ hanswer, hsame, hsample⟩

end Sampler

end LinProg
