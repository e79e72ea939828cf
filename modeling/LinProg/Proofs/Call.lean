import LinProg.Call

/-!
Rules of calls. A call is followed through its parts: what a part answers decides what runs next,
and the events of the parts come one after another. An invariant that all parts keep is kept by
the whole; it may speak about a record of the events as well as about the receiver.
-/

namespace LinProg

def Failure.Satisfies {ε : Type} (T : ε → Prop) : Failure ε → Prop
  | .error e => T e
  | .fault _ => True

def Reply.Returned {υ ε σ β : Type} (r : Reply υ ε σ β) : Prop :=
  ∀ f, r.result ≠ .error (.fault f)

def Reply.InRange {υ ε σ β : Type} (r : Reply υ ε σ β) : Prop :=
  r.result ≠ .error (.fault .outOfRange)

def Reply.ending {υ ε σ β : Type} (r : Reply υ ε σ β) : Except (Failure ε) β × σ :=
  (r.result, r.state)

theorem exists_of_isOk {ε β : Type} {x : Except ε β} (h : x.isOk = true) : ∃ b, x = .ok b := by
  cases x with
  | ok b => exact ⟨b, rfl⟩
  | error e => cases h

theorem Reply.returned_of_isOk {υ ε σ β : Type} {r : Reply υ ε σ β} (h : r.result.isOk = true) :
    r.Returned := by
  intro f hf
  rw [hf] at h
  cases h

namespace Call

variable {υ ε ε' σ τ β γ ρ : Type}

theorem bind_of_ok {c : Call υ ε σ β} {s s' : σ} {b : β} {es : List υ}
    (h : c s = ⟨.ok b, s', es⟩) (k : β → Call υ ε σ γ) :
    (c >>= k) s = ⟨(k b s').result, (k b s').state, es ++ (k b s').events⟩ := by
  rw [bind_apply, h]

theorem bind_of_error {c : Call υ ε σ β} {s s' : σ} {f : Failure ε} {es : List υ}
    (h : c s = ⟨.error f, s', es⟩) (k : β → Call υ ε σ γ) :
    (c >>= k) s = ⟨.error f, s', es⟩ := by
  rw [bind_apply, h]

theorem bind_eq {c : Call υ ε σ β} {k : β → Call υ ε σ γ} {s s' s'' : σ} {b : β}
    {r : Except (Failure ε) γ} {es es' : List υ} (h : c s = ⟨.ok b, s', es⟩)
    (hk : k b s' = ⟨r, s'', es'⟩) : (c >>= k) s = ⟨r, s'', es ++ es'⟩ := by
  rw [bind_of_ok h, hk]

@[simp] theorem mapError_ok (wrap : ε → ε') (b : β) :
    (Except.ok b : Except ε β).mapError wrap = .ok b := rfl

@[simp] theorem mapError_error (wrap : ε → ε') (e : ε) :
    (Except.error e : Except ε β).mapError wrap = .error (wrap e) := rfl

theorem result_bind_eq_ok {c : Call υ ε σ β} {k : β → Call υ ε σ γ} {s : σ} {x : γ}
    (h : ((c >>= k) s).result = .ok x) :
    ∃ b, (c s).result = .ok b ∧ (k b (c s).state).result = .ok x := by
  rw [bind_apply] at h
  cases hb : (c s).result with
  | ok b => exact ⟨b, rfl, by simpa [hb] using h⟩
  | error f => simp [hb] at h

theorem result_within_eq_ok {t : τ} {c : Call υ ε τ β} {s : σ} {r : β × τ}
    (h : ((within t c : Call υ ε σ (β × τ)) s).result = .ok r) :
    (c t).result = .ok r.1 ∧ (c t).state = r.2 := by
  rw [within] at h
  cases hc : (c t).result with
  | ok b =>
    obtain rfl : (b, (c t).state) = r := by simpa [hc, Except.map] using h
    exact ⟨rfl, rfl⟩
  | error f => simp [hc, Except.map] at h

theorem events_bind_of_ok {c : Call υ ε σ β} {k : β → Call υ ε σ γ} {s : σ} {b : β}
    (h : (c s).result = .ok b) :
    ((c >>= k) s).events = (c s).events ++ (k b (c s).state).events := by
  rw [bind_apply, h]

theorem mem_events_bind {c : Call υ ε σ β} {k : β → Call υ ε σ γ} {s : σ} {e : υ}
    (h : e ∈ ((c >>= k) s).events) : e ∈ (c s).events ∨
      ∃ b, (c s).result = .ok b ∧ e ∈ (k b (c s).state).events := by
  rw [bind_apply] at h
  cases hb : (c s).result with
  | ok b =>
    rw [hb] at h
    obtain h | h := List.mem_append.1 h
    · exact .inl h
    · exact .inr ⟨b, rfl, h⟩
  | error f => exact .inl (by simpa [hb] using h)

theorem result_mapError_eq_ok {c : Call υ ε σ β} {wrap : ε → ε'} {s : σ} {x : β}
    (h : (c.mapError wrap s).result = .ok x) : (c s).result = .ok x := by
  change (c s).result.mapError (Failure.map wrap) = .ok x at h
  cases hb : (c s).result with
  | ok b => simpa [hb] using h
  | error f => simp [hb] at h

theorem bind_state {c : Call υ ε σ β} {k : β → Call υ ε σ γ} (hk : ∀ b s, (k b s).state = s)
    (s : σ) : ((c >>= k) s).state = (c s).state := by
  rw [bind_apply]
  cases (c s).result with
  | ok b => exact hk b _
  | error f => rfl

theorem bind_pure_apply (c : Call υ ε σ β) (g : β → γ) (s : σ) :
    (c >>= fun b => pure (g b)) s = ⟨(c s).result.map g, (c s).state, (c s).events⟩ := by
  rw [bind_apply]
  cases (c s).result with
  | ok b => simp [Except.map]
  | error f => rfl

@[simp] theorem pure_bind (b : β) (k : β → Call υ ε σ γ) (s : σ) :
    ((pure b : Call υ ε σ β) >>= k) s = k b s := rfl

@[simp] theorem state_bind (k : σ → Call υ ε σ γ) (s : σ) : (state >>= k) s = k s s := rfl

@[simp] theorem modify_bind (f : σ → σ) (k : Unit → Call υ ε σ γ) (s : σ) :
    (modify f >>= k) s = k () (f s) := rfl

@[simp] theorem emit_bind (e : υ) (k : Unit → Call υ ε σ γ) (s : σ) :
    (emit e >>= k) s = ⟨(k () s).result, (k () s).state, e :: (k () s).events⟩ := rfl

@[simp] theorem throw_bind (f : Failure ε) (k : β → Call υ ε σ γ) (s : σ) :
    (throw f >>= k) s = ⟨.error f, s, []⟩ := rfl

@[simp] theorem fail_bind (e : ε) (k : β → Call υ ε σ γ) (s : σ) :
    (fail e >>= k) s = ⟨.error (.error e), s, []⟩ := rfl

@[simp] theorem require_true (e : ε) : (require true e : Call υ ε σ Unit) = pure () := rfl

@[simp] theorem require_false (e : ε) : (require false e : Call υ ε σ Unit) = fail e := rfl

@[simp] theorem ofExcept_ok (b : β) : (ofExcept (.ok b) : Call υ ε σ β) = pure b := rfl

@[simp] theorem ofExcept_error (e : ε) : (ofExcept (.error e) : Call υ ε σ β) = fail e := rfl

@[simp] theorem ofExcept_events (x : Except ε β) (s : σ) :
    ((ofExcept x : Call υ ε σ β) s).events = [] := by
  cases x <;> rfl

@[simp] theorem ofResult_ok (b : β) : (ofResult (.ok b) : Call υ ε σ β) = pure b := rfl

@[simp] theorem ofResult_error (f : Failure ε) :
    (ofResult (.error f) : Call υ ε σ β) = throw f := rfl

@[simp] theorem ofOption_some (b : β) : (ofOption (some b) : Call υ ε σ β) = pure b := rfl

theorem on_apply (part : σ → τ) (put : σ → τ → σ) (wrap : ε → ε') (c : Call υ ε τ β) (s : σ) :
    c.on part put wrap s =
      ⟨(c (part s)).result.mapError (Failure.map wrap), put s (c (part s)).state,
        (c (part s)).events⟩ := rfl

theorem thenAlways_apply (c : Call υ ε σ β) (undo : Call υ ε σ Unit) (s : σ) :
    c.thenAlways undo s =
      ⟨(undo (c s).state).result.bind fun _ => (c s).result, (undo (c s).state).state,
        (c s).events ++ (undo (c s).state).events⟩ := rfl

theorem attempt_cases (c : Call υ ε σ β) (s : σ) :
    (∃ x, c.attempt s = ⟨.ok x, (c s).state, (c s).events⟩) ∨
      ∃ f, c.attempt s = ⟨.error (.fault f), (c s).state, (c s).events⟩ := by
  rw [attempt]
  cases (c s).result with
  | ok b => exact .inl ⟨.ok b, rfl⟩
  | error e =>
    cases e with
    | error e => exact .inl ⟨.error e, rfl⟩
    | fault f => exact .inr ⟨f, rfl⟩

@[simp] theorem attempt_events (c : Call υ ε σ β) (s : σ) :
    (c.attempt s).events = (c s).events := by
  obtain ⟨x, hx⟩ | ⟨f, hf⟩ := c.attempt_cases s
  · rw [hx]
  · rw [hf]

@[simp] theorem attempt_state (c : Call υ ε σ β) (s : σ) :
    (c.attempt s).state = (c s).state := by
  obtain ⟨x, hx⟩ | ⟨f, hf⟩ := c.attempt_cases s
  · rw [hx]
  · rw [hf]

theorem result_attempt_bind {c : Call υ ε σ β} {k : Call υ ε σ Unit} {s : σ}
    (hk : (k (c s).state).result = .ok ()) :
    ((do
      let result ← attempt c
      k
      ofExcept result) s).result = (c s).result := by
  rw [bind_apply, attempt]
  cases hr : (c s).result with
  | ok b => simp [bind_apply, hk]
  | error f =>
    cases f with
    | error e => simp [bind_apply, hk]
    | fault f => rfl

@[simp] theorem forM_cons (x : ρ) (xs : List ρ) (f : ρ → Call υ ε σ Unit) (s : σ) :
    List.forM (x :: xs) f s = (f x >>= fun _ => xs.forM f) s := rfl

theorem events_forM {xs : List ρ} {f : ρ → Call υ ε σ Unit} (h : ∀ x s, (f x s).events = [])
    (s : σ) : (xs.forM f s).events = [] := by
  induction xs generalizing s with
  | nil => rfl
  | cons x xs ih =>
    rw [forM_cons, bind_apply]
    cases (f x s).result with
    | ok u =>
      rw [h x s, List.nil_append]
      exact ih (f x s).state
    | error e => exact h x s

theorem forM_map {π : Type} (g : π → ρ) (xs : List π) (f : ρ → Call υ ε σ Unit) (s : σ) :
    (xs.map g).forM f s = (xs.forM fun x => f (g x)) s := by
  induction xs generalizing s with
  | nil => rfl
  | cons x xs ih =>
    rw [List.map_cons, forM_cons, forM_cons, bind_apply, bind_apply]
    cases (f (g x) s).result with
    | ok u => rw [ih]
    | error e => rfl

theorem forM_ofExcept {xs : List ρ} {f : ρ → Except ε Unit} (h : ∀ x ∈ xs, f x = .ok ())
    (s : σ) : (xs.forM fun x => (ofExcept (f x) : Call υ ε σ Unit)) s = ⟨.ok (), s, []⟩ := by
  induction xs with
  | nil => rfl
  | cons x xs ih =>
    rw [forM_cons, h x (by simp), ofExcept_ok, pure_bind]
    exact ih fun y hy => h y (by simp [hy])

theorem forM_ofExcept_first {π : Type} {xs : List ρ} {f : ρ → Except ε Unit} {first : ρ → Option π}
    {wrap : π → ε} (hf : ∀ x, f x = (first x).elim (.ok ()) fun y => .error (wrap y)) {y : π}
    (h : xs.findSome? first = some y) (s : σ) :
    (xs.forM fun x => (ofExcept (f x) : Call υ ε σ Unit)) s =
      ⟨.error (.error (wrap y)), s, []⟩ := by
  induction xs with
  | nil => simp at h
  | cons x xs ih =>
    rw [forM_cons, hf]
    cases hx : first x with
    | some z =>
      rw [List.findSome?_cons, hx] at h
      obtain rfl := Option.some.inj h
      rfl
    | none =>
      rw [List.findSome?_cons, hx] at h
      exact (pure_bind () _ s).trans (ih h)

theorem state_forM {xs : List ρ} {f : ρ → Call υ ε σ Unit} {s : σ}
    (h : (xs.forM f s).result = .ok ()) :
    (xs.forM f s).state = xs.foldl (fun s x => (f x s).state) s := by
  induction xs generalizing s with
  | nil => rfl
  | cons x xs ih =>
    rw [forM_cons] at h ⊢
    obtain ⟨u, hx, hxs⟩ := result_bind_eq_ok h
    rw [bind_apply, hx]
    exact ih hxs

section Atomic

def AtomicAt (c : Call υ ε σ β) (s : σ) : Prop :=
  ∀ e, (c s).result = .error (.error e) → (c s).state = s

theorem atomicAt_of_ok {c : Call υ ε σ β} {s s' : σ} {b : β} {es : List υ}
    (h : c s = ⟨.ok b, s', es⟩) : c.AtomicAt s := by
  intro e he
  simp [h] at he

theorem atomicAt_of_error {c : Call υ ε σ β} {s : σ} {f : Failure ε} {es : List υ}
    (h : c s = ⟨.error f, s, es⟩) : c.AtomicAt s := by
  intro e _
  rw [h]

theorem atomicAt_modify? (f : σ → Option σ) (s : σ) :
    (modify? f : Call υ ε σ Unit).AtomicAt s := by
  intro e he
  rw [modify?] at he
  cases hf : f s <;> simp [hf] at he

end Atomic

section Keeps

/-- The call keeps an invariant of the receiver and of a record in which its events are noted. -/
def Keeps (note : ρ → υ → ρ) (I : ρ → σ → Prop) (c : Call υ ε σ β) : Prop :=
  ∀ r s, I r s → I ((c s).events.foldl note r) (c s).state

abbrev Preserves (I : σ → Prop) (c : Call υ ε σ β) : Prop :=
  Keeps (fun (r : Unit) _ => r) (fun _ => I) c

theorem Preserves.state {J : σ → Prop} {c : Call υ ε σ β} (h : Preserves J c) {s : σ} (hs : J s) :
    J (c s).state :=
  h () s hs

variable {note : ρ → υ → ρ} {I : ρ → σ → Prop}

theorem keeps_pure (b : β) : Keeps note I (pure b : Call υ ε σ β) := fun _ _ h => h

theorem keeps_fail (e : ε) : Keeps note I (fail e : Call υ ε σ β) := fun _ _ h => h

theorem keeps_state : Keeps note I (state : Call υ ε σ σ) := fun _ _ h => h

theorem keeps_modify {f : σ → σ} (hf : ∀ r s, I r s → I r (f s)) :
    Keeps note I (modify f : Call υ ε σ Unit) := hf

theorem keeps_modify? {f : σ → Option σ} (hf : ∀ r s s', f s = some s' → I r s → I r s') :
    Keeps note I (modify? f : Call υ ε σ Unit) := by
  intro r s h
  rw [modify?]
  cases hs : f s with
  | some s' => exact hf r s s' hs h
  | none => exact h

theorem keeps_emit {e : υ} (he : ∀ r, note r e = r) :
    Keeps note I (emit e : Call υ ε σ Unit) := by
  intro r s h
  simpa [he] using h

theorem keeps_require (b : Bool) (e : ε) : Keeps note I (require b e : Call υ ε σ Unit) := by
  cases b <;> exact fun _ _ h => h

theorem keeps_ofExcept (x : Except ε β) : Keeps note I (ofExcept x : Call υ ε σ β) := by
  cases x <;> exact fun _ _ h => h

theorem keeps_ofResult (x : Except (Failure ε) β) :
    Keeps note I (ofResult x : Call υ ε σ β) := by
  cases x <;> exact fun _ _ h => h

theorem keeps_ofOption (x : Option β) : Keeps note I (ofOption x : Call υ ε σ β) := by
  cases x <;> exact fun _ _ h => h

theorem keeps_bind {c : Call υ ε σ β} {k : β → Call υ ε σ γ} (hc : Keeps note I c)
    (hk : ∀ b, Keeps note I (k b)) : Keeps note I (c >>= k) := by
  intro r s h
  have hs := hc r s h
  rw [bind_apply]
  cases hr : (c s).result with
  | ok b => simpa using hk b _ _ hs
  | error e => simpa using hs

theorem keeps_state_bind {k : σ → Call υ ε σ γ} (hk : ∀ s, Keeps note I (k s)) :
    Keeps note I (state >>= k) :=
  keeps_bind keeps_state hk

theorem keeps_forM {π : Type} {xs : List π} {f : π → Call υ ε σ Unit}
    (h : ∀ x ∈ xs, Keeps note I (f x)) : Keeps note I (xs.forM f) := by
  induction xs with
  | nil => exact keeps_pure ()
  | cons x xs ih =>
    exact keeps_bind (h x (by simp)) fun _ => ih fun y hy => h y (by simp [hy])

theorem keeps_on {part : σ → τ} {put : σ → τ → σ} {wrap : ε → ε'} {c : Call υ ε τ β}
    (hput : ∀ s, put s (part s) = s) (hc : ∀ s, Keeps note (fun r t => I r (put s t)) c) :
    Keeps note I (c.on part put wrap) := by
  intro r s h
  apply hc s
  rw [hput]
  exact h

theorem keeps_thenAlways {c : Call υ ε σ β} {undo : Call υ ε σ Unit} (hc : Keeps note I c)
    (hundo : Keeps note I undo) : Keeps note I (c.thenAlways undo) := by
  intro r s h
  rw [thenAlways_apply, List.foldl_append]
  exact hundo _ _ (hc r s h)

theorem keeps_attempt {c : Call υ ε σ β} (hc : Keeps note I c) : Keeps note I (attempt c) := by
  intro r s h
  rw [attempt_events, attempt_state]
  exact hc r s h

end Keeps

section Meets

/-- What can be said of a call from states in `I`: it stays in `I`, all of its events are in `E`, an
event with an error to its name is the end of the call with this error, and its answer is in
`Q`. -/
def Meets (I : σ → Prop) (E : υ → Prop) (last : υ → Option ε) (Q : β → Prop)
    (c : Call υ ε σ β) : Prop :=
  ∀ s, I s → I (c s).state ∧
    (∀ e ∈ (c s).events, E e ∧ ∀ f, last e = some f → (c s).result = .error (.error f)) ∧
    ∀ b, (c s).result = .ok b → Q b

variable {I : σ → Prop} {E : υ → Prop} {last : υ → Option ε} {Q : β → Prop}

theorem meets_pure {b : β} (hb : Q b) : Meets I E last Q (pure b : Call υ ε σ β) := by
  intro s hs
  simpa using ⟨hs, hb⟩

theorem meets_state {Q : σ → Prop} (h : ∀ s, I s → Q s) :
    Meets I E last Q (state : Call υ ε σ σ) := by
  intro s hs
  simpa using ⟨hs, h s hs⟩

theorem meets_modify {f : σ → σ} (hf : ∀ s, I s → I (f s)) :
    Meets I E last (fun _ => True) (modify f : Call υ ε σ Unit) := by
  intro s hs
  simpa using hf s hs

theorem meets_emit {e : υ} (he : E e) (hn : last e = none) :
    Meets I E last (fun _ => True) (emit e : Call υ ε σ Unit) := by
  intro s hs
  simpa [hn] using ⟨hs, he⟩

theorem meets_require (b : Bool) (e : ε) :
    Meets I E last (fun _ => True) (require b e : Call υ ε σ Unit) := by
  intro s hs
  cases b <;> simpa using hs

theorem meets_ofOption (x : Option β) :
    Meets I E last (fun _ => True) (ofOption x : Call υ ε σ β) := by
  intro s hs
  cases x <;> simpa [ofOption] using hs

/-- The parts of a call may not go on after an event that is the last one. -/
theorem meets_bind {P : β → Prop} {Q : γ → Prop} {c : Call υ ε σ β} {k : β → Call υ ε σ γ}
    (hc : Meets I E last P c) (hk : ∀ b, P b → Meets I E last Q (k b)) :
    Meets I E last Q (c >>= k) := by
  intro s hs
  obtain ⟨hstate, hevents, hanswer⟩ := hc s hs
  rw [bind_apply]
  cases hr : (c s).result with
  | error f =>
    refine ⟨hstate, fun e he => ⟨(hevents e he).1, fun f' hf' => ?_⟩, fun b hb => by simp at hb⟩
    simpa [hr] using (hevents e he).2 f' hf'
  | ok b =>
    obtain ⟨hstate', hevents', hanswer'⟩ := hk b (hanswer b hr) _ hstate
    refine ⟨hstate', fun e he => ?_, hanswer'⟩
    obtain he | he := List.mem_append.1 he
    · refine ⟨(hevents e he).1, fun f' hf' => ?_⟩
      simpa [hr] using (hevents e he).2 f' hf'
    · exact hevents' e he

end Meets

section InRange

theorem inRange_of_ok {c : Call υ ε σ β} {s s' : σ} {b : β} {es : List υ}
    (h : c s = ⟨.ok b, s', es⟩) : (c s).InRange := by
  simp [Reply.InRange, h]

theorem inRange_of_error {c : Call υ ε σ β} {s s' : σ} {e : ε} {es : List υ}
    (h : c s = ⟨.error (.error e), s', es⟩) : (c s).InRange := by
  simp [Reply.InRange, h]

theorem inRange_bind {c : Call υ ε σ β} {k : β → Call υ ε σ γ} {s : σ} (hc : (c s).InRange)
    (hk : ∀ b, (c s).result = .ok b → (k b (c s).state).InRange) : ((c >>= k) s).InRange := by
  rw [bind_apply]
  cases hr : (c s).result with
  | ok b => exact hk b hr
  | error f =>
    rw [Reply.InRange, hr] at hc
    simpa [Reply.InRange] using hc

theorem inRange_bind_pure {c : Call υ ε σ β} {s : σ} (hc : (c s).InRange) (g : β → γ) :
    ((c >>= fun b => pure (g b)) s).InRange :=
  inRange_bind hc fun b _ => inRange_of_ok (pure_apply (g b) _)

theorem inRange_ofExcept (x : Except ε β) (s : σ) :
    ((ofExcept x : Call υ ε σ β) s).InRange := by
  cases x <;> simp [Reply.InRange]

theorem inRange_require (b : Bool) (e : ε) (s : σ) :
    ((require b e : Call υ ε σ Unit) s).InRange := by
  cases b <;> simp [Reply.InRange]

theorem inRange_ofResult {x : Except (Failure ε) β} (h : x ≠ .error (.fault .outOfRange))
    (s : σ) : ((ofResult x : Call υ ε σ β) s).InRange := by
  cases x with
  | ok b => simp [Reply.InRange]
  | error f => simpa [Reply.InRange] using h

theorem inRange_modify? {f : σ → Option σ} {s : σ} :
    ((modify? f : Call υ ε σ Unit) s).InRange ↔ (f s).isSome := by
  cases hs : f s <;> simp [Reply.InRange, modify?, hs]

theorem inRange_forM {xs : List ρ} {f : ρ → Call υ ε σ Unit} (h : ∀ x s, (f x s).InRange)
    (s : σ) : (xs.forM f s).InRange := by
  induction xs generalizing s with
  | nil => exact inRange_of_ok (pure_apply () s)
  | cons x xs ih => exact inRange_bind (h x s) fun _ _ => ih _

theorem mapError_inRange {x : Except (Failure ε) β} (h : x ≠ .error (.fault .outOfRange))
    (wrap : ε → ε') : x.mapError (Failure.map wrap) ≠ .error (.fault .outOfRange) := by
  cases x with
  | ok b => simp
  | error f =>
    cases f with
    | error e => simp [Failure.map]
    | fault f => simpa [Failure.map] using h

theorem inRange_on {part : σ → τ} {put : σ → τ → σ} {c : Call υ ε τ β} {s : σ}
    (h : (c (part s)).InRange) (wrap : ε → ε') : (c.on part put wrap s).InRange :=
  mapError_inRange h wrap

theorem inRange_within {t : τ} {c : Call υ ε τ β} (h : (c t).InRange) (s : σ) :
    ((within t c : Call υ ε σ (β × τ)) s).InRange := by
  rw [Reply.InRange] at h
  rw [Reply.InRange, within]
  cases hr : (c t).result with
  | ok b => simp [Except.map]
  | error f => simpa [Except.map, hr] using h

theorem inRange_thenAlways {c : Call υ ε σ β} {undo : Call υ ε σ Unit} {s : σ}
    (hc : (c s).InRange) (hundo : (undo (c s).state).InRange) :
    (c.thenAlways undo s).InRange := by
  rw [Reply.InRange, thenAlways_apply]
  cases hr : (undo (c s).state).result with
  | ok u => exact hc
  | error f =>
    rw [Reply.InRange, hr] at hundo
    simpa [Except.bind] using hundo

theorem inRange_attempt {c : Call υ ε σ β} {s : σ} (h : (c s).InRange) :
    (c.attempt s).InRange := by
  rw [Reply.InRange] at h
  rw [Reply.InRange, attempt]
  cases hr : (c s).result with
  | ok b => simp
  | error f =>
    cases f with
    | error e => simp
    | fault f => simpa [hr] using h

end InRange

section Ends

/-- From states in `I` the call ends in such a state, with an answer in `Q` or a failure in `F`. -/
def Ends (I : σ → Prop) (F : Failure ε → Prop) (Q : β → Prop) (c : Call υ ε σ β) : Prop :=
  ∀ s, I s → I (c s).state ∧ (∀ f, (c s).result = .error f → F f) ∧
    ∀ b, (c s).result = .ok b → Q b

variable {I : σ → Prop} {F : Failure ε → Prop} {Q : β → Prop}

theorem ends_pure {b : β} (hb : Q b) : Ends I F Q (pure b : Call υ ε σ β) := by
  intro s hs
  simpa using ⟨hs, hb⟩

theorem ends_state {Q : σ → Prop} (h : ∀ s, I s → Q s) :
    Ends I F Q (state : Call υ ε σ σ) := by
  intro s hs
  simpa using ⟨hs, h s hs⟩

theorem ends_modify {f : σ → σ} (hf : ∀ s, I s → I (f s)) :
    Ends I F (fun _ => True) (modify f : Call υ ε σ Unit) := by
  intro s hs
  simpa using hf s hs

theorem ends_emit (e : υ) : Ends I F (fun _ => True) (emit e : Call υ ε σ Unit) := by
  intro s hs
  simpa using hs

theorem ends_fail {e : ε} (h : F (.error e)) : Ends I F Q (fail e : Call υ ε σ β) := by
  intro s hs
  simpa using ⟨hs, h⟩

theorem ends_require {b : Bool} {e : ε} (h : b = false → F (.error e)) :
    Ends I F (fun _ => True) (require b e : Call υ ε σ Unit) := by
  cases b with
  | true => exact ends_pure trivial
  | false => exact ends_fail (h rfl)

theorem ends_ofExcept {x : Except ε β} (h : ∀ e, x = .error e → F (.error e)) :
    Ends I F (fun _ => True) (ofExcept x : Call υ ε σ β) := by
  cases x with
  | ok b => exact ends_pure trivial
  | error e => exact ends_fail (h e rfl)

theorem ends_ofResult {x : Except (Failure ε) β} (h : ∀ f, x = .error f → F f) :
    Ends I F (fun _ => True) (ofResult x : Call υ ε σ β) := by
  intro s hs
  cases x with
  | ok b => simpa using hs
  | error f => simpa using ⟨hs, h f rfl⟩

theorem ends_ofOption {x : Option β} (h : F (.fault .outOfRange)) :
    Ends I F (fun _ => True) (ofOption x : Call υ ε σ β) := by
  intro s hs
  cases x with
  | some b => simpa using hs
  | none => simpa [ofOption] using ⟨hs, h⟩

theorem ends_modify? {f : σ → Option σ} (hf : ∀ s s', f s = some s' → I s → I s')
    (h : F (.fault .outOfRange)) :
    Ends I F (fun _ => True) (modify? f : Call υ ε σ Unit) := by
  intro s hs
  rw [modify?]
  cases hr : f s with
  | some s' => simpa using hf s s' hr hs
  | none => simpa using ⟨hs, h⟩

theorem ends_bind {P : β → Prop} {Q : γ → Prop} {c : Call υ ε σ β} {k : β → Call υ ε σ γ}
    (hc : Ends I F P c) (hk : ∀ b, P b → Ends I F Q (k b)) : Ends I F Q (c >>= k) := by
  intro s hs
  obtain ⟨hstate, hfailure, hanswer⟩ := hc s hs
  rw [bind_apply]
  cases hr : (c s).result with
  | error f => exact ⟨hstate, by simpa using hfailure f hr, by simp⟩
  | ok b => exact hk b (hanswer b hr) _ hstate

theorem ends_state_bind {P : σ → Prop} {k : σ → Call υ ε σ γ} {Q : γ → Prop}
    (hI : ∀ s, I s → P s) (hk : ∀ s, P s → Ends I F Q (k s)) : Ends I F Q (state >>= k) :=
  ends_bind (ends_state hI) hk

theorem Ends.mono {c : Call υ ε σ β} (h : Ends I F Q c) {Q' : β → Prop} (hQ : ∀ b, Q b → Q' b) :
    Ends I F Q' c := fun s hs =>
  ⟨(h s hs).1, (h s hs).2.1, fun b hb => hQ b ((h s hs).2.2 b hb)⟩

theorem ends_forM {xs : List ρ} {f : ρ → Call υ ε σ Unit}
    (h : ∀ x ∈ xs, Ends I F (fun _ => True) (f x)) : Ends I F (fun _ => True) (xs.forM f) := by
  induction xs with
  | nil => exact ends_pure trivial
  | cons x xs ih =>
    obtain ⟨hx, hxs⟩ := List.forall_mem_cons.1 h
    exact ends_bind hx fun _ _ => ih hxs

/-- Nothing is asked of the part, so nothing of the receiver either. -/
theorem ends_on {F' : Failure ε' → Prop} {part : σ → τ} {put : σ → τ → σ} {wrap : ε → ε'}
    {c : Call υ ε τ β} (hc : Ends (fun _ => True) F Q c) (hF : ∀ f, F f → F' (f.map wrap)) :
    Ends (fun _ => True) F' Q (c.on part put wrap) := by
  intro s _
  obtain ⟨-, hfailure, hanswer⟩ := hc (part s) trivial
  rw [on_apply]
  cases hr : (c (part s)).result with
  | ok b => simpa using hanswer b hr
  | error f => simpa using hF f (hfailure f hr)

theorem ends_within {t : τ} {c : Call υ ε τ β} (hc : Ends (fun _ => True) F Q c) :
    Ends I F (fun r => Q r.1) (within t c : Call υ ε σ (β × τ)) := by
  intro s hs
  obtain ⟨-, hfailure, hanswer⟩ := hc t trivial
  rw [within]
  cases hr : (c t).result with
  | ok b => simpa [Except.map] using ⟨hs, hanswer b hr⟩
  | error f => simpa [Except.map] using ⟨hs, hfailure f hr⟩

theorem ends_thenAlways {P : Unit → Prop} {c : Call υ ε σ β} {undo : Call υ ε σ Unit}
    (hc : Ends I F Q c) (hundo : Ends I F P undo) : Ends I F Q (c.thenAlways undo) := by
  intro s hs
  obtain ⟨hstate, hfailure, hanswer⟩ := hc s hs
  obtain ⟨hstate', hfailure', -⟩ := hundo _ hstate
  rw [thenAlways_apply]
  cases hr : (undo (c s).state).result with
  | ok u => exact ⟨hstate', hfailure, hanswer⟩
  | error f => exact ⟨hstate', by simpa [Except.bind] using hfailure' f hr, by simp [Except.bind]⟩

theorem ends_attempt {c : Call υ ε σ β} (hc : Ends I F Q c) :
    Ends I F (fun r => ∀ e, r = .error e → F (.error e)) (attempt c) := by
  intro s hs
  obtain ⟨hstate, hfailure, -⟩ := hc s hs
  rw [attempt]
  cases hr : (c s).result with
  | ok b => simpa using hstate
  | error f =>
    cases f with
    | error e => simpa using ⟨hstate, hfailure _ hr⟩
    | fault f => simpa using ⟨hstate, hfailure _ hr⟩

theorem Ends.inRange {c : Call υ ε σ β} (h : Ends I (· ≠ .fault .outOfRange) Q c) {s : σ}
    (hs : I s) : (c s).InRange := fun hr => (h s hs).2.1 _ hr rfl

end Ends

section Honest

abbrev Honest (T : ε → Prop) (c : Call υ ε σ β) : Prop :=
  Ends (fun _ => True) (Failure.Satisfies T) (fun _ => True) c

variable {T : ε → Prop}

theorem Honest.error {c : Call υ ε σ β} (h : c.Honest T) {s : σ} {e : ε}
    (he : (c s).result = .error (.error e)) : T e :=
  (h s trivial).2.1 _ he

theorem honest_of_error {c : Call υ ε σ β}
    (h : ∀ s e, (c s).result = .error (.error e) → T e) : c.Honest T := by
  refine fun s _ => ⟨trivial, fun f hf => ?_, fun _ _ => trivial⟩
  cases f with
  | error e => exact h s e hf
  | fault f => trivial

theorem honest_bind {c : Call υ ε σ β} {k : β → Call υ ε σ γ} (hc : c.Honest T)
    (hk : ∀ b, (k b).Honest T) : (c >>= k).Honest T :=
  ends_bind hc fun b _ => hk b

theorem honest_state_bind {k : σ → Call υ ε σ γ} (hk : ∀ s, (k s).Honest T) :
    (state >>= k).Honest T :=
  ends_state_bind (fun _ h => h) fun s _ => hk s

theorem honest_modify (f : σ → σ) : (modify f : Call υ ε σ Unit).Honest T :=
  ends_modify fun _ h => h

theorem honest_modify? (f : σ → Option σ) : (modify? f : Call υ ε σ Unit).Honest T :=
  ends_modify? (fun _ _ _ h => h) trivial

theorem honest_ofOption (x : Option β) : (ofOption x : Call υ ε σ β).Honest T :=
  ends_ofOption trivial

theorem honest_on {T' : ε' → Prop} {part : σ → τ} {put : σ → τ → σ} {wrap : ε → ε'}
    {c : Call υ ε τ β} (hc : c.Honest T) (hT : ∀ e, T e → T' (wrap e)) :
    (c.on part put wrap).Honest T' := by
  refine ends_on hc fun f hf => ?_
  cases f with
  | error e => exact hT e hf
  | fault f => trivial

end Honest

section Agrees

/-- From any two states in `I` the call has the same result, and it ends in such states again. -/
def Agrees (I : σ → σ → Prop) (c : Call υ ε σ β) : Prop :=
  ∀ s t, I s t → (c s).result = (c t).result ∧ I (c s).state (c t).state

variable {I : σ → σ → Prop}

theorem agrees_pure (b : β) : Agrees I (pure b : Call υ ε σ β) :=
  fun _ _ h => ⟨rfl, h⟩

theorem agrees_fail (e : ε) : Agrees I (fail e : Call υ ε σ β) :=
  fun _ _ h => ⟨rfl, h⟩

theorem agrees_emit (e : υ) : Agrees I (emit e : Call υ ε σ Unit) :=
  fun _ _ h => ⟨rfl, h⟩

theorem agrees_modify {f : σ → σ} (hf : ∀ s t, I s t → I (f s) (f t)) :
    Agrees I (modify f : Call υ ε σ Unit) :=
  fun s t h => ⟨rfl, hf s t h⟩

theorem agrees_require (b : Bool) (e : ε) : Agrees I (require b e : Call υ ε σ Unit) := by
  cases b with
  | true => exact agrees_pure ()
  | false => exact agrees_fail e

theorem agrees_ofOption (x : Option β) : Agrees I (ofOption x : Call υ ε σ β) := by
  cases x <;> exact fun _ _ h => ⟨rfl, h⟩

theorem agrees_bind {c : Call υ ε σ β} {k : β → Call υ ε σ γ} (hc : Agrees I c)
    (hk : ∀ b, Agrees I (k b)) : Agrees I (c >>= k) := by
  intro s t h
  obtain ⟨hresult, hstate⟩ := hc s t h
  rw [bind_apply, bind_apply, ← hresult]
  cases (c s).result with
  | ok b => exact hk b _ _ hstate
  | error f => exact ⟨rfl, hstate⟩

theorem agrees_state_bind {k : σ → Call υ ε σ β} (hread : ∀ s t, I s t → k s = k t)
    (hk : ∀ s, Agrees I (k s)) : Agrees I (state >>= k) := by
  intro s t h
  rw [state_bind, state_bind, ← hread s t h]
  exact hk s s t h

end Agrees

section Ending

theorem bind_congr {c : Call υ ε σ β} {k k' : β → Call υ ε σ γ} {s : σ}
    (h : ∀ b, (c s).result = .ok b → k b (c s).state = k' b (c s).state) :
    (c >>= k) s = (c >>= k') s := by
  rw [bind_apply, bind_apply]
  cases hr : (c s).result with
  | ok b => simp only [h b hr]
  | error f => rfl

theorem bind_assoc (c : Call υ ε σ β) (k : β → Call υ ε σ γ) {δ : Type}
    (l : γ → Call υ ε σ δ) (s : σ) :
    ((c >>= k) >>= l) s = (c >>= fun b => k b >>= l) s := by
  rw [bind_apply, bind_apply, bind_apply]
  cases (c s).result with
  | error f => rfl
  | ok b =>
    simp only [bind_apply]
    cases (k b (c s).state).result with
    | error f => rfl
    | ok x => simp

theorem bind_pure (c : Call υ ε σ β) (s : σ) : (c >>= fun b => pure b) s = c s := by
  rw [bind_pure_apply]
  cases hr : (c s).result <;> simp [Except.map, ← hr]

/-- A part may be replaced by one that ends in the same way and tells of something else. -/
theorem ending_bind {c c' : Call υ ε σ β} {k k' : β → Call υ ε σ γ} {s : σ}
    (hc : (c s).ending = (c' s).ending) (hk : ∀ b t, (k b t).ending = (k' b t).ending) :
    ((c >>= k) s).ending = ((c' >>= k') s).ending := by
  obtain ⟨hresult, hstate⟩ := Prod.mk.inj hc
  rw [bind_apply, bind_apply, ← hresult, ← hstate]
  cases (c s).result with
  | ok b => exact hk b _
  | error f => rfl

end Ending

end Call

end LinProg
