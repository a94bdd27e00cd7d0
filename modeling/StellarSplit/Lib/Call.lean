import Mathlib.Logic.Relation
import Mathlib.Data.List.Basic
import Mathlib.Tactic.Linarith

/-!
# Contract calls as state transformers

A call reads and writes a state and either returns or traps. A trap
discards every write of the call, so a run is a list of calls in which
the trapping ones leave the state alone. The rules below take a
successful call apart (`bind_ok`), close a preorder on states under the
program constructors (`Respects`) and carry an invariant along a run.
-/

namespace Exec

variable {σ ε α β ι : Type}

/-- A call on states `σ` that may trap with `ε`. -/
abbrev Call (σ ε α : Type) := StateT σ (Except ε) α

/-- Continue only when the condition holds. -/
def require (c : Prop) [Decidable c] (f : ε) : Call σ ε Unit :=
  if c then pure () else throw f

/-- Run a call only when the condition holds. -/
def onlyIf (c : Prop) [Decidable c] (x : Call σ ε Unit) : Call σ ε Unit := if c then x else pure ()

/-- Run a computation that does not touch the state. -/
def ofResult (x : Except ε α) : Call σ ε α := fun s => x.map fun a => (a, s)

/-- Run a call for its effect only. -/
def ignore (x : Call σ ε α) : Call σ ε Unit := (fun _ => ()) <$> x

/-! ## Taking a successful call apart -/

theorem isOk_iff {x : Except ε α} : x.isOk = true ↔ ∃ a, x = .ok a := by
  cases x <;> simp [Except.isOk, Except.toBool]

theorem except_bind_ok {x : Except ε α} {f : α → Except ε β} {b : β} :
    (x >>= f) = .ok b ↔ ∃ a, x = .ok a ∧ f a = .ok b := by
  cases x <;> simp [bind, Except.bind]

/-- What each step of a fold keeps is true of its result. -/
theorem except_foldlM_invariant {P : β → Prop} {f : β → ι → Except ε β} {xs : List ι} {b c : β}
    (hstep : ∀ b i c, P b → f b i = .ok c → P c) (hb : P b) (hrun : xs.foldlM f b = .ok c) : P c := by
  induction xs generalizing b with
  | nil => exact Except.ok.inj hrun ▸ hb
  | cons i xs ih =>
      rw [List.foldlM_cons] at hrun
      obtain ⟨d, hfirst, hrest⟩ := except_bind_ok.1 hrun
      exact ih (hstep b i d hb hfirst) hrest

@[simp] theorem bind_ok {x : Call σ ε α} {f : α → Call σ ε β} {s : σ} {r : β × σ} :
    (x >>= f) s = .ok r ↔ ∃ a t, x s = .ok (a, t) ∧ f a t = .ok r := by
  change (Except.bind (x s) fun p => f p.1 p.2) = .ok r ↔ _
  cases h : x s with
  | error e => simp [Except.bind]
  | ok p =>
      obtain ⟨a, t⟩ := p
      simp [Except.bind]

/-- A sequence returns when its first part does and the second does after it. -/
theorem bind_returns {x : Call σ ε α} {f : α → Call σ ε β} {s : σ} :
    (∃ r, (x >>= f) s = .ok r) ↔ ∃ a t, x s = .ok (a, t) ∧ ∃ r, f a t = .ok r := by
  constructor
  · rintro ⟨r, hrun⟩
    obtain ⟨a, t, hx, hf⟩ := bind_ok.1 hrun
    exact ⟨a, t, hx, r, hf⟩
  · rintro ⟨a, t, hx, r, hf⟩
    exact ⟨r, bind_ok.2 ⟨a, t, hx, hf⟩⟩

@[simp] theorem pure_ok {a b : α} {s t : σ} :
    (pure a : Call σ ε α) s = .ok (b, t) ↔ a = b ∧ s = t := by
  change Except.ok (a, s) = .ok (b, t) ↔ _
  simp

@[simp] theorem throw_ok {e : ε} {s : σ} {r : α × σ} :
    (throw e : Call σ ε α) s = .ok r ↔ False := by
  change Except.error e = .ok r ↔ _
  simp

@[simp] theorem get_ok {s t u : σ} :
    (get : Call σ ε σ) s = .ok (u, t) ↔ s = u ∧ s = t := by
  change Except.ok (s, s) = .ok (u, t) ↔ _
  simp

@[simp] theorem set_ok {s t u : σ} {v : Unit} :
    (set u : Call σ ε Unit) s = .ok (v, t) ↔ u = t := by
  change Except.ok (⟨⟩, u) = .ok (v, t) ↔ _
  simp

@[simp] theorem modify_ok {f : σ → σ} {s t : σ} {v : Unit} :
    (modify f : Call σ ε Unit) s = .ok (v, t) ↔ f s = t := by
  change Except.ok ((), f s) = .ok (v, t) ↔ _
  simp

@[simp] theorem map_ok {x : Call σ ε α} {f : α → β} {s t : σ} {b : β} :
    (f <$> x) s = .ok (b, t) ↔ ∃ a, x s = .ok (a, t) ∧ f a = b := by
  change ((x >>= fun a => pure (f a)) : Call σ ε β) s = .ok (b, t) ↔ _
  simp only [bind_ok, pure_ok]
  constructor
  · rintro ⟨a, u, h, rfl, rfl⟩
    exact ⟨a, h, rfl⟩
  · rintro ⟨a, h, rfl⟩
    exact ⟨a, t, h, rfl, rfl⟩

@[simp] theorem ignore_ok {x : Call σ ε α} {s t : σ} {v : Unit} :
    (ignore x) s = .ok (v, t) ↔ ∃ a, x s = .ok (a, t) := by
  simp [ignore]

@[simp] theorem require_ok {c : Prop} [Decidable c] {f : ε} {s t : σ} {v : Unit} :
    (require c f : Call σ ε Unit) s = .ok (v, t) ↔ c ∧ s = t := by
  unfold require
  split <;> simp_all

@[simp] theorem onlyIf_ok {c : Prop} [Decidable c] {x : Call σ ε Unit} {s t : σ} {v : Unit} :
    (onlyIf c x) s = .ok (v, t) ↔ (c ∧ x s = .ok ((), t)) ∨ (¬c ∧ s = t) := by
  unfold onlyIf
  split <;> simp_all

theorem onlyIf_returns {c : Prop} [Decidable c] {x : Call σ ε Unit} {s : σ} :
    (∃ r, (onlyIf c x) s = .ok r) ↔ (c → ∃ r, x s = .ok r) := by
  unfold onlyIf
  by_cases hc : c
  · rw [if_pos hc]
    exact ⟨fun h _ => h, fun h => h hc⟩
  · rw [if_neg hc]
    exact iff_of_true ⟨((), s), rfl⟩ fun h => absurd h hc

@[simp] theorem ofResult_ok {x : Except ε α} {s t : σ} {a : α} :
    (ofResult x : Call σ ε α) s = .ok (a, t) ↔ x = .ok a ∧ s = t := by
  unfold ofResult
  cases x <;> simp [Except.map]

/-! ## Symbolic execution of a call that is known to go on -/

theorem bind_run {x : Call σ ε α} {f : α → Call σ ε β} {s t : σ} {a : α}
    (h : x s = .ok (a, t)) : (x >>= f) s = f a t := by
  change (Except.bind (x s) fun p => f p.1 p.2) = _
  rw [h]
  rfl

theorem bind_trap {x : Call σ ε α} {f : α → Call σ ε β} {s : σ} {e : ε}
    (h : x s = .error e) : (x >>= f) s = .error e := by
  change (Except.bind (x s) fun p => f p.1 p.2) = _
  rw [h]
  rfl

/-- A sequence traps in its first part or, once that has returned, in its second. -/
theorem bind_error {x : Call σ ε α} {f : α → Call σ ε β} {s : σ} {e : ε} :
    (x >>= f) s = .error e ↔
      x s = .error e ∨ ∃ a t, x s = .ok (a, t) ∧ f a t = .error e := by
  cases hx : x s with
  | error e' =>
      rw [bind_trap hx]
      simp
  | ok p =>
      obtain ⟨a, t⟩ := p
      rw [bind_run hx]
      simp

theorem require_run {c : Prop} [Decidable c] (h : c) (f : ε) (s : σ) :
    (require c f : Call σ ε Unit) s = .ok ((), s) := by
  simp [h]

theorem require_trap {c : Prop} [Decidable c] (h : ¬c) (f : ε) (s : σ) :
    (require c f : Call σ ε Unit) s = .error f := by
  unfold require
  rw [if_neg h]
  rfl

/-- A loop traps with the fault of one of its rounds. -/
theorem forM_error {xs : List ι} {f : ι → Call σ ε PUnit} {s : σ} {e : ε}
    (h : forM xs f s = .error e) : ∃ i ∈ xs, ∃ t, f i t = .error e := by
  induction xs generalizing s with
  | nil => cases h
  | cons i xs ih =>
      rw [List.forM_cons] at h
      rcases bind_error.1 h with hfirst | ⟨_, t, -, hrest⟩
      · exact ⟨i, by simp, s, hfirst⟩
      · obtain ⟨j, hj, hfault⟩ := ih hrest
        exact ⟨j, List.mem_cons_of_mem i hj, hfault⟩

/-! ## Faults a call does not trap with -/

/-- The call returns, or its fault is not one of `bad`. -/
def Avoids (bad : ε → Prop) (x : Call σ ε α) (s : σ) : Prop := ∀ e, x s = .error e → ¬bad e

namespace Avoids

variable {bad : ε → Prop} {s : σ}

theorem of_ok {x : Call σ ε α} {r : α × σ} (h : x s = .ok r) : Avoids bad x s := by
  intro e he
  rw [h] at he
  cases he

theorem pure (a : α) : Avoids bad (pure a : Call σ ε α) s := of_ok rfl

theorem throw {e : ε} (h : ¬bad e) : Avoids bad (throw e : Call σ ε α) s := by
  intro e' he
  cases he
  exact h

theorem bind {x : Call σ ε α} {f : α → Call σ ε β} (hx : Avoids bad x s)
    (hf : ∀ a t, x s = .ok (a, t) → Avoids bad (f a) t) : Avoids bad (x >>= f) s := by
  intro e he
  rcases bind_error.1 he with hfirst | ⟨a, t, hfirst, hrest⟩
  · exact hx e hfirst
  · exact hf a t hfirst e hrest

/-- A check with a harmless fault, or one that is met. -/
theorem require_bind {c : Prop} [Decidable c] {f : ε} {k : Unit → Call σ ε β} (h : c ∨ ¬bad f)
    (hk : Avoids bad (k ()) s) : Avoids bad (require c f >>= k) s := by
  by_cases hc : c
  · exact bind (of_ok (require_run hc f s)) fun _ t hrun => by
      obtain ⟨-, rfl⟩ := require_ok.1 hrun
      exact hk
  · intro e he
    rw [bind_trap (require_trap hc f s)] at he
    cases he
    exact h.resolve_left hc

theorem require {c : Prop} [Decidable c] {f : ε} (h : c ∨ ¬bad f) :
    Avoids bad (require c f : Call σ ε Unit) s := by
  by_cases hc : c
  · exact of_ok (require_run hc f s)
  · intro e he
    rw [require_trap hc f s] at he
    cases he
    exact h.resolve_left hc

theorem mapM {xs : List ι} {f : ι → Call σ ε α} (hf : ∀ i ∈ xs, ∀ t, Avoids bad (f i) t) :
    Avoids bad (xs.mapM f) s := by
  induction xs generalizing s with
  | nil => exact pure _
  | cons i xs ih =>
      rw [List.mapM_cons]
      refine bind (hf i (by simp) s) fun a t _ => ?_
      exact bind (ih fun j hj => hf j (List.mem_cons_of_mem i hj)) fun b u _ => pure _

end Avoids

/-! ## Steps that only look -/

section Steps

variable {k : α → Call σ ε β} {s : σ} {r : β × σ}

theorem get_bind {k : σ → Call σ ε β} : (get >>= k) s = .ok r ↔ k s s = .ok r := by
  simp only [bind_ok, get_ok]
  constructor
  · rintro ⟨_, _, ⟨rfl, rfl⟩, h⟩
    exact h
  · exact fun h => ⟨s, s, ⟨rfl, rfl⟩, h⟩

theorem require_bind {c : Prop} [Decidable c] {f : ε} {k : Unit → Call σ ε β} :
    (require c f >>= k) s = .ok r ↔ c ∧ k () s = .ok r := by
  simp only [bind_ok, require_ok]
  constructor
  · rintro ⟨_, _, ⟨hc, rfl⟩, h⟩
    exact ⟨hc, h⟩
  · rintro ⟨hc, h⟩
    exact ⟨(), s, ⟨hc, rfl⟩, h⟩

theorem ofResult_bind {x : Except ε α} :
    (ofResult x >>= k) s = .ok r ↔ ∃ a, x = .ok a ∧ k a s = .ok r := by
  simp only [bind_ok, ofResult_ok]
  constructor
  · rintro ⟨a, _, ⟨hx, rfl⟩, h⟩
    exact ⟨a, hx, h⟩
  · rintro ⟨a, hx, h⟩
    exact ⟨a, s, ⟨hx, rfl⟩, h⟩

end Steps

/-! ## Preorders a call respects -/

/-- Every normal exit of the call is related to its entry. -/
def Respects (R : σ → σ → Prop) (x : Call σ ε α) : Prop :=
  ∀ s a t, x s = .ok (a, t) → R s t

namespace Respects

variable {R : σ → σ → Prop}

theorem pure [Std.Refl R] (a : α) : Respects R (pure a : Call σ ε α) := by
  rintro s b t h
  obtain ⟨-, rfl⟩ := pure_ok.1 h
  exact refl_of R s

theorem throw (e : ε) : Respects R (throw e : Call σ ε α) := by
  intro s a t h
  exact (throw_ok.1 h).elim

theorem get [Std.Refl R] : Respects R (get : Call σ ε σ) := by
  rintro s b t h
  obtain ⟨-, rfl⟩ := get_ok.1 h
  exact refl_of R s

theorem modify {f : σ → σ} (h : ∀ s, R s (f s)) :
    Respects R (modify f : Call σ ε Unit) := by
  rintro s a t ht
  rw [← modify_ok.1 ht]
  exact h s

theorem require [Std.Refl R] (c : Prop) [Decidable c] (f : ε) :
    Respects R (require c f : Call σ ε Unit) := by
  rintro s a t h
  obtain ⟨-, rfl⟩ := require_ok.1 h
  exact refl_of R s

theorem ofResult [Std.Refl R] (x : Except ε α) : Respects R (ofResult x : Call σ ε α) := by
  rintro s a t h
  obtain ⟨-, rfl⟩ := ofResult_ok.1 h
  exact refl_of R s

theorem bind [IsTrans σ R] {x : Call σ ε α} {f : α → Call σ ε β}
    (hx : Respects R x) (hf : ∀ a, Respects R (f a)) : Respects R (x >>= f) := by
  intro s b t h
  obtain ⟨a, u, h₁, h₂⟩ := bind_ok.1 h
  exact IsTrans.trans _ _ _ (hx s a u h₁) (hf a u b t h₂)

theorem map {x : Call σ ε α} (f : α → β) (hx : Respects R x) : Respects R (f <$> x) := by
  intro s b t h
  obtain ⟨a, h, -⟩ := map_ok.1 h
  exact hx s a t h

theorem ite {c : Prop} [Decidable c] {x y : Call σ ε α}
    (hx : c → Respects R x) (hy : ¬c → Respects R y) : Respects R (if c then x else y) := by
  split
  · exact hx ‹_›
  · exact hy ‹_›

theorem forM [Std.Refl R] [IsTrans σ R] {xs : List ι} {f : ι → Call σ ε PUnit}
    (hf : ∀ i ∈ xs, Respects R (f i)) : Respects R (forM xs f) := by
  induction xs with
  | nil => exact Respects.pure _
  | cons i xs ih =>
      rw [List.forM_cons]
      exact bind (hf i (by simp)) fun _ => ih fun j hj => hf j (List.mem_cons_of_mem i hj)

theorem foldlM [Std.Refl R] [IsTrans σ R] {xs : List ι} {f : β → ι → Call σ ε β}
    (hf : ∀ b, ∀ i ∈ xs, Respects R (f b i)) (b : β) : Respects R (xs.foldlM f b) := by
  induction xs generalizing b with
  | nil => exact Respects.pure _
  | cons i xs ih =>
      rw [List.foldlM_cons]
      exact bind (hf b i (by simp)) fun c =>
        ih (fun d j hj => hf d j (List.mem_cons_of_mem i hj)) c

theorem ignore {x : Call σ ε α} (hx : Respects R x) : Respects R (ignore x) := map _ hx

theorem onlyIf [Std.Refl R] {c : Prop} [Decidable c] {x : Call σ ε Unit} (hx : c → Respects R x) :
    Respects R (onlyIf c x) := ite hx fun _ => pure _

end Respects

/-- A relation that is claimed only from states with `P`, and keeps `P`. -/
def Under (P : σ → Prop) (R : σ → σ → Prop) (s t : σ) : Prop := P s → P t ∧ R s t

section Under

variable {P : σ → Prop} {R : σ → σ → Prop}

instance under_refl [Std.Refl R] : Std.Refl (Under P R) := ⟨fun s h => ⟨h, refl_of R s⟩⟩

instance under_trans [IsTrans σ R] : IsTrans σ (Under P R) :=
  ⟨fun _ _ _ h₁ h₂ hs => by
    obtain ⟨ht, hst⟩ := h₁ hs
    obtain ⟨hu, htu⟩ := h₂ ht
    exact ⟨hu, IsTrans.trans _ _ _ hst htu⟩⟩

end Under

/-! ## Measures over loops -/

section Bounds

variable {P : σ → Prop} {μ : σ → ℤ} {w : ι → ℤ}

/-- A loop whose rounds keep `P` and raise `μ` by at most the weight of their element. -/
theorem foldlM_bound {f : β → ι → Call σ ε β} {xs : List ι} {b c : β} {s t : σ}
    (hstep : ∀ b i s c t, i ∈ xs → P s → f b i s = .ok (c, t) → P t ∧ μ t ≤ μ s + w i)
    (hs : P s) (hrun : xs.foldlM f b s = .ok (c, t)) :
    P t ∧ μ t ≤ μ s + (xs.map w).sum := by
  induction xs generalizing b s with
  | nil =>
      obtain ⟨-, rfl⟩ := pure_ok.1 hrun
      exact ⟨hs, by simp⟩
  | cons i xs ih =>
      rw [List.foldlM_cons] at hrun
      obtain ⟨b', u, hfirst, hrest⟩ := bind_ok.1 hrun
      obtain ⟨hu, hle⟩ := hstep b i s b' u (by simp) hs hfirst
      obtain ⟨ht, hle'⟩ :=
        ih (fun b j s c t hj => hstep b j s c t (List.mem_cons_of_mem i hj)) hu hrest
      refine ⟨ht, ?_⟩
      simp only [List.map_cons, List.sum_cons]
      linarith

end Bounds

/-! ## Logs that grow -/

section Logs

variable {P : α → Prop} {l₁ l₂ l₃ : List α}

/-- Two stretches of a log, both made of entries in `P`, are one such stretch. -/
theorem grown_trans (h₁ : ∃ new, l₂ = new ++ l₁ ∧ ∀ m ∈ new, P m)
    (h₂ : ∃ new, l₃ = new ++ l₂ ∧ ∀ m ∈ new, P m) :
    ∃ new, l₃ = new ++ l₁ ∧ ∀ m ∈ new, P m := by
  obtain ⟨new₁, rfl, hnew₁⟩ := h₁
  obtain ⟨new₂, rfl, hnew₂⟩ := h₂
  refine ⟨new₂ ++ new₁, by rw [List.append_assoc], fun m hm => ?_⟩
  rcases List.mem_append.1 hm with hm | hm
  · exact hnew₂ m hm
  · exact hnew₁ m hm

end Logs

/-! ## Instance search for the relations of a program -/

/-- The steps of a program as a class: instance search follows the structure of the program. A chain of
steps needs no preorder, so that the instances of a long program stay small. -/
class Framed (R : σ → σ → Prop) (x : Call σ ε α) : Prop where
  steps : Respects (Relation.ReflTransGen R) x

namespace Framed

variable {R : σ → σ → Prop}

theorem of {x : Call σ ε α} (hx : Respects R x) : Framed R x := ⟨fun s a t h => .single (hx s a t h)⟩

/-- A preorder holds along the steps. -/
theorem respects [Std.Refl R] [IsTrans σ R] {x : Call σ ε α} (hx : Framed R x) : Respects R x := by
  intro s a t h
  have hsteps := hx.steps s a t h
  clear h
  induction hsteps with
  | refl => exact refl_of R s
  | tail _ hlast ih => exact IsTrans.trans _ _ _ ih hlast

/-- `respects` for the steps that instance search finds. -/
theorem holds [Std.Refl R] [IsTrans σ R] {x : Call σ ε α} [hx : Framed R x] : Respects R x := hx.respects

instance pure (a : α) : Framed R (pure a : Call σ ε α) := ⟨.pure a⟩

instance throw (e : ε) : Framed R (throw e : Call σ ε α) := ⟨.throw e⟩

instance get : Framed R (get : Call σ ε σ) := ⟨.get⟩

instance require (c : Prop) [Decidable c] (f : ε) : Framed R (require c f : Call σ ε Unit) := ⟨.require c f⟩

instance ofResult (x : Except ε α) : Framed R (ofResult x : Call σ ε α) := ⟨.ofResult x⟩

instance bind (x : Call σ ε α) (f : α → Call σ ε β) [hx : Framed R x] [hf : ∀ a, Framed R (f a)] :
    Framed R (x >>= f) :=
  ⟨.bind hx.steps fun a => (hf a).steps⟩

/-- A first step by itself, where the search through all of the program is too long. -/
theorem next {x : Call σ ε α} {f : α → Call σ ε β} [hx : Framed R x] (hf : ∀ a, Framed R (f a)) : Framed R (x >>= f) :=
  bind x f

/-- After a step whose value is not used, the search does not ask about the rest for every value. -/
instance (priority := 1100) andThen (x : Call σ ε α) (y : Call σ ε β) [hx : Framed R x] [hy : Framed R y] :
    Framed R (x >>= fun _ => y) :=
  ⟨.bind hx.steps fun _ => hy.steps⟩

instance ignore (x : Call σ ε α) [hx : Framed R x] : Framed R (ignore x) := ⟨.ignore hx.steps⟩

instance ite (c : Prop) [Decidable c] (x y : Call σ ε α) [hx : Framed R x] [hy : Framed R y] :
    Framed R (if c then x else y) :=
  ⟨.ite (fun _ => hx.steps) fun _ => hy.steps⟩

instance onlyIf (c : Prop) [Decidable c] (x : Call σ ε Unit) [hx : Framed R x] : Framed R (onlyIf c x) :=
  ⟨.onlyIf fun _ => hx.steps⟩

instance forM (xs : List ι) (f : ι → Call σ ε PUnit) [hf : ∀ i, Framed R (f i)] : Framed R (forM xs f) :=
  ⟨.forM fun i _ => (hf i).steps⟩

instance foldlM (xs : List ι) (f : β → ι → Call σ ε β) [hf : ∀ b i, Framed R (f b i)] (b : β) :
    Framed R (xs.foldlM f b) :=
  ⟨.foldlM (fun b i _ => (hf b i).steps) b⟩

instance mapM (xs : List ι) (f : ι → Call σ ε α) [hf : ∀ i, Framed R (f i)] : Framed R (xs.mapM f) := by
  induction xs with
  | nil =>
      rw [List.mapM_nil]
      infer_instance
  | cons i xs ih =>
      rw [List.mapM_cons]
      infer_instance

end Framed

/-- A loop of checks passes when every check passes on the state it starts from. -/
theorem forM_each {f : ι → Call σ ε PUnit} [hf : ∀ i, Framed Eq (f i)] {xs : List ι} {s t : σ}
    {v : PUnit} (hrun : forM xs f s = .ok (v, t)) : ∀ i ∈ xs, f i s = .ok (⟨⟩, s) := by
  induction xs with
  | nil => simp
  | cons i xs ih =>
      rw [List.forM_cons] at hrun
      obtain ⟨_, u, hfirst, hrest⟩ := bind_ok.1 hrun
      obtain rfl := (hf i).respects s _ u hfirst
      intro k hk
      rcases List.mem_cons.1 hk with rfl | hk
      · exact hfirst
      · exact ih hrest k hk

/-! ## Runs -/

/-- The state after a top-level call; a trap discards the call's writes. -/
def commit (x : Call σ ε α) (s : σ) : σ :=
  match x s with
  | .ok (_, t) => t
  | .error _ => s

theorem commit_ok {x : Call σ ε α} {s t : σ} {a : α} (h : x s = .ok (a, t)) :
    commit x s = t := by
  simp [commit, h]

/-- A call that returns a value ends in the committed state. -/
theorem ok_commit {x : Call σ ε α} {s : σ} {a : α} (h : (x s).toOption.map Prod.fst = some a) :
    x s = .ok (a, commit x s) := by
  cases hx : x s with
  | error e =>
      rw [hx] at h
      cases h
  | ok r =>
      rw [hx] at h
      rw [commit_ok hx, ← Option.some.inj h]

theorem commit_error {x : Call σ ε α} {s : σ} {e : ε} (h : x s = .error e) :
    commit x s = s := by
  simp [commit, h]

/-- Either the call returned with the committed state, or nothing changed. -/
theorem commit_cases (x : Call σ ε α) (s : σ) :
    (∃ a, x s = .ok (a, commit x s)) ∨ ((∃ e, x s = .error e) ∧ commit x s = s) := by
  cases h : x s with
  | ok p => exact .inl ⟨p.1, by rw [commit_ok h]⟩
  | error e => exact .inr ⟨⟨e, rfl⟩, commit_error h⟩

/-- The state after a list of top-level calls. -/
def runAll (step : ι → Call σ ε α) (s : σ) (xs : List ι) : σ :=
  xs.foldl (fun s i => commit (step i) s) s

/-- Every call of the run that returns starts in a state allowed for it. -/
def Along (ok : σ → ι → Prop) (step : ι → Call σ ε α) : σ → List ι → Prop
  | _, [] => True
  | s, i :: xs => ((∃ r, step i s = .ok r) → ok s i) ∧ Along ok step (commit (step i) s) xs

@[simp] theorem runAll_nil (step : ι → Call σ ε α) (s : σ) : runAll step s [] = s := rfl

@[simp] theorem runAll_cons (step : ι → Call σ ε α) (s : σ) (i : ι) (xs : List ι) :
    runAll step s (i :: xs) = runAll step (commit (step i) s) xs := rfl

/-- An invariant kept by every allowed call that returns holds after every run of
allowed calls. -/
theorem runAll_induction {ok : σ → ι → Prop} {step : ι → Call σ ε α} {I : σ → Prop}
    (hstep : ∀ s i a t, I s → ok s i → step i s = .ok (a, t) → I t)
    {s : σ} (hs : I s) {xs : List ι} (hxs : Along ok step s xs) : I (runAll step s xs) := by
  induction xs generalizing s with
  | nil => exact hs
  | cons i xs ih =>
      obtain ⟨hi, hrest⟩ := hxs
      have hnext : I (commit (step i) s) := by
        rcases commit_cases (step i) s with ⟨a, h⟩ | ⟨-, h⟩
        · exact hstep s i a _ hs (hi ⟨_, h⟩) h
        · rwa [h]
      exact ih hnext hrest

/-! ### Notes beside a run -/

section Notes

variable {ν : Type}

/-- A call with a note beside the state, taken from the states before and after it. -/
def beside (next : ν → σ → σ → ν) (x : Call σ ε α) : Call (σ × ν) ε α := fun p =>
  match x p.1 with
  | .ok (a, t) => .ok (a, (t, next p.2 p.1 t))
  | .error e => .error e

theorem beside_ok {next : ν → σ → σ → ν} {x : Call σ ε α} {s t : σ} {n m : ν} {a : α} :
    beside next x (s, n) = .ok (a, (t, m)) ↔ x s = .ok (a, t) ∧ m = next n s t := by
  unfold beside
  cases x s with
  | ok r =>
      constructor
      · intro h
        cases h
        exact ⟨rfl, rfl⟩
      · rintro ⟨h, rfl⟩
        cases h
        rfl
  | error e => simp

theorem commit_beside (next : ν → σ → σ → ν) (x : Call σ ε α) (s : σ) (n : ν) :
    (commit (beside next x) (s, n)).1 = commit x s := by
  cases hx : x s with
  | ok r =>
      have hbeside : beside next x (s, n) = .ok (r.1, (r.2, next n s r.2)) :=
        beside_ok.2 ⟨hx, rfl⟩
      rw [commit_ok hbeside, commit_ok (a := r.1) (t := r.2) hx]
  | error e =>
      have hbeside : beside next x (s, n) = .error e := by
        unfold beside
        rw [hx]
      rw [commit_error hbeside, commit_error hx]

/-- Notes do not change a run. -/
theorem runAll_beside (next : ι → ν → σ → σ → ν) (step : ι → Call σ ε α) (s : σ) (n : ν)
    (xs : List ι) :
    (runAll (fun i => beside (next i) (step i)) (s, n) xs).1 = runAll step s xs := by
  induction xs generalizing s n with
  | nil => rfl
  | cons i xs ih =>
      rw [runAll_cons, runAll_cons, ← commit_beside (next i) (step i) s n]
      exact ih _ _

end Notes

theorem along_true (step : ι → Call σ ε α) (s : σ) (xs : List ι) :
    Along (fun _ _ => True) step s xs := by
  induction xs generalizing s with
  | nil => trivial
  | cons i xs ih => exact ⟨fun _ => trivial, ih _⟩

theorem Along.mono {ok ok' : σ → ι → Prop} {step : ι → Call σ ε α} {s : σ} {xs : List ι}
    (himp : ∀ s i, ok s i → ok' s i) (h : Along ok step s xs) : Along ok' step s xs := by
  induction xs generalizing s with
  | nil => trivial
  | cons i xs ih =>
      obtain ⟨hi, hrest⟩ := h
      exact ⟨fun hrun => himp s i (hi hrun), ih hrest⟩

theorem Along.and {ok ok' : σ → ι → Prop} {step : ι → Call σ ε α} {s : σ} {xs : List ι}
    (h : Along ok step s xs) (h' : Along ok' step s xs) :
    Along (fun s i => ok s i ∧ ok' s i) step s xs := by
  induction xs generalizing s with
  | nil => trivial
  | cons i xs ih =>
      obtain ⟨hi, hrest⟩ := h
      obtain ⟨hi', hrest'⟩ := h'
      exact ⟨fun hrun => ⟨hi hrun, hi' hrun⟩, ih hrest hrest'⟩

/-- A restriction on each call of the run joins a restriction on its states. -/
theorem Along.and_mem {ok : σ → ι → Prop} {q : ι → Prop} {step : ι → Call σ ε α} {s : σ}
    {xs : List ι} (h : Along ok step s xs) (hq : ∀ i ∈ xs, q i) :
    Along (fun s i => q i ∧ ok s i) step s xs := by
  induction xs generalizing s with
  | nil => trivial
  | cons i xs ih =>
      obtain ⟨hi, hrest⟩ := h
      exact ⟨fun hrun => ⟨hq i (by simp), hi hrun⟩,
        ih hrest fun j hj => hq j (List.mem_cons_of_mem i hj)⟩

/-- The rule for runs without any restriction on the calls. -/
theorem runAll_invariant {step : ι → Call σ ε α} {I : σ → Prop}
    (hstep : ∀ s i a t, I s → step i s = .ok (a, t) → I t)
    {s : σ} (hs : I s) (xs : List ι) : I (runAll step s xs) :=
  runAll_induction (fun s i a t hI _ => hstep s i a t hI) hs (along_true step s xs)

end Exec
