import Mathlib.Data.List.Forall2
import Mathlib.Tactic.Choose
import QuadSampler.Quad

/-!
# Computations that may fail

Every stage of a build or of a sampling call ends in an answer or a failure. This module says when
a composed computation answers, in terms of its parts: for one step after another, for a list of
computations, and for the four lanes of a quad.
-/

namespace QuadSampler

universe u v w

variable {ε : Type v} {α β : Type u}

@[simp]
theorem ok_bind (a : α) (f : α → Except ε β) : (Except.ok a >>= f) = f a := rfl

@[simp]
theorem error_bind (e : ε) (f : α → Except ε β) : (Except.error e >>= f) = .error e := rfl

@[simp]
theorem pure_eq_ok (a : α) : (pure a : Except ε α) = .ok a := rfl

@[simp]
theorem map_ok (f : α → β) (a : α) : (Except.ok a : Except ε α).map f = .ok (f a) := rfl

@[simp]
theorem map_error (f : α → β) (e : ε) : (Except.error e : Except ε α).map f = .error e := rfl

@[simp]
theorem mapError_ok {ε' : Type v} (f : ε → ε') (a : α) :
    (Except.ok a : Except ε α).mapError f = .ok a := rfl

@[simp]
theorem mapError_error {ε' : Type v} (f : ε → ε') (e : ε) :
    (Except.error e : Except ε α).mapError f = .error (f e) := rfl

theorem bind_eq_ok {x : Except ε α} {f : α → Except ε β} {b : β} :
    x >>= f = .ok b ↔ ∃ a, x = .ok a ∧ f a = .ok b := by
  cases x with
  | error e =>
    constructor
    · intro h
      exact nomatch h
    · rintro ⟨a, ha, -⟩
      exact nomatch ha
  | ok a =>
    constructor
    · intro h
      exact ⟨a, rfl, h⟩
    · rintro ⟨a', ha, h⟩
      obtain rfl := Except.ok.inj ha
      exact h

theorem exists_bind_eq_ok {x : Except ε α} {f : α → Except ε β} {a : α} (ha : x = .ok a)
    (hf : ∃ b, f a = .ok b) : ∃ b, x >>= f = .ok b := by
  obtain ⟨b, hb⟩ := hf
  exact ⟨b, bind_eq_ok.2 ⟨a, ha, hb⟩⟩

theorem exists_bind_eq_ok_and {x : Except ε α} {f : α → Except ε β} {a : α} {P : β → Prop}
    (ha : x = .ok a) (hf : ∃ b, f a = .ok b ∧ P b) : ∃ b, x >>= f = .ok b ∧ P b := by
  obtain ⟨b, hb, hP⟩ := hf
  exact ⟨b, bind_eq_ok.2 ⟨a, ha, hb⟩, hP⟩

theorem bind_congr_ok {x : Except ε α} {f g : α → Except ε β} (h : ∀ a, x = .ok a → f a = g a) :
    x >>= f = x >>= g := by
  cases x with
  | error e => rfl
  | ok a => exact h a rfl

theorem map_bind_ok {γ : Type u} (x : Except ε α) (f : α → β) (g : β → γ) :
    (x >>= fun a ↦ .ok (f a)).map g = x.map fun a ↦ g (f a) := by
  cases x with
  | error e => rfl
  | ok a => rfl

theorem mapError_eq_ok {ε' : Type v} {x : Except ε α} {f : ε → ε'} {a : α} :
    x.mapError f = .ok a ↔ x = .ok a := by
  cases x with
  | error e =>
    constructor
    · intro h
      exact nomatch h
    · intro h
      exact nomatch h
  | ok b =>
    constructor
    · intro h
      exact congrArg Except.ok (Except.ok.inj h)
    · intro h
      exact congrArg Except.ok (Except.ok.inj h)

theorem mapM_congr {f g : α → Except ε β} {xs : List α} (h : ∀ x ∈ xs, f x = g x) :
    xs.mapM f = xs.mapM g := by
  induction xs with
  | nil => rfl
  | cons x xs ih =>
    rw [List.mapM_cons, List.mapM_cons, h x List.mem_cons_self,
      ih fun y hy ↦ h y (List.mem_cons_of_mem x hy)]

theorem forall₂_of_mapM_eq_ok {f : α → Except ε β} {xs : List α} {ys : List β}
    (h : xs.mapM f = .ok ys) : List.Forall₂ (fun x y ↦ f x = .ok y) xs ys := by
  induction xs generalizing ys with
  | nil =>
    obtain rfl := Except.ok.inj h
    exact .nil
  | cons x xs ih =>
    rw [List.mapM_cons] at h
    obtain ⟨y, hy, h⟩ := bind_eq_ok.1 h
    obtain ⟨ys', hys, h⟩ := bind_eq_ok.1 h
    obtain rfl := Except.ok.inj h
    exact .cons hy (ih hys)

theorem mapM_eq_ok_map {f : α → Except ε β} {g : α → β} {xs : List α}
    (h : ∀ x ∈ xs, f x = .ok (g x)) : xs.mapM f = .ok (xs.map g) := by
  rw [mapM_congr h]
  exact List.mapM_pure

theorem length_of_mapM_eq_ok {f : α → Except ε β} {xs : List α} {ys : List β}
    (h : xs.mapM f = .ok ys) : ys.length = xs.length :=
  (forall₂_of_mapM_eq_ok h).length_eq.symm

theorem exists_of_mem_of_mapM_eq_ok {f : α → Except ε β} {xs : List α} {ys : List β} {y : β}
    (h : xs.mapM f = .ok ys) (hy : y ∈ ys) : ∃ x ∈ xs, f x = .ok y := by
  have hall := forall₂_of_mapM_eq_ok h
  clear h
  induction hall with
  | nil => exact (List.not_mem_nil hy).elim
  | @cons x y' xs ys hhead _ ih =>
    rcases List.mem_cons.1 hy with rfl | hy
    · exact ⟨x, List.mem_cons_self, hhead⟩
    · obtain ⟨x', hx', hf⟩ := ih hy
      exact ⟨x', List.mem_cons_of_mem x hx', hf⟩

/-- What each answer keeps of its question is in the list of answers what it was in the list of
questions. -/
theorem map_of_mapM_eq_ok {f : α → Except ε β} {g : β → α} {xs : List α} {ys : List β}
    (h : xs.mapM f = .ok ys) (hg : ∀ x y, f x = .ok y → g y = x) : ys.map g = xs := by
  have hall := forall₂_of_mapM_eq_ok h
  clear h
  induction hall with
  | nil => rfl
  | @cons x y xs ys hhead _ ih => rw [List.map_cons, hg x y hhead, ih]

/-- A loop along a path of states ends where the path does. -/
theorem foldlM_range_eq_ok {f : β → Nat → Except ε β} (path : Nat → β) {n : Nat}
    (h : ∀ i < n, f (path i) i = .ok (path (i + 1))) :
    (List.range n).foldlM f (path 0) = .ok (path n) := by
  induction n with
  | zero => rfl
  | succ n ih =>
    rw [List.range_succ, List.foldlM_append, ih fun i hi ↦ h i (Nat.lt_succ_of_lt hi), ok_bind,
      List.foldlM_cons, h n (Nat.lt_succ_self n), ok_bind, List.foldlM_nil, pure_eq_ok]

/-- What every step of a loop keeps holds of what the loop ends with. -/
theorem of_foldlM_range_eq_ok {f : β → Nat → Except ε β} {P : Nat → β → Prop} {n : Nat}
    (hstep : ∀ i < n, ∀ b b', P i b → f b i = .ok b' → P (i + 1) b') {b b' : β} (hb : P 0 b)
    (h : (List.range n).foldlM f b = .ok b') : P n b' := by
  induction n generalizing b' with
  | zero =>
    obtain rfl := Except.ok.inj h
    exact hb
  | succ n ih =>
    rw [List.range_succ, List.foldlM_append] at h
    obtain ⟨b₁, h₁, h⟩ := bind_eq_ok.1 h
    rw [List.foldlM_cons] at h
    obtain ⟨b₂, h₂, h⟩ := bind_eq_ok.1 h
    obtain rfl := Except.ok.inj h
    exact hstep n (Nat.lt_succ_self n) b₁ b₂
      (ih (fun i hi ↦ hstep i (Nat.lt_succ_of_lt hi)) h₁) h₂

/-- A loop each step of which adds to a list, on which the state depends, adds everything. The steps
need to be known up to a greatest length only. -/
theorem foldlM_eq_ok_of_append {γ : Type w} {f : β → α → Except ε β} {state : List γ → β}
    {added : α → List γ} {xs : List α} (greatest : Nat)
    (h : ∀ x ∈ xs, ∀ done, (done ++ added x).length ≤ greatest →
      f (state done) x = .ok (state (done ++ added x)))
    (done : List γ) (hgreatest : (done ++ xs.flatMap added).length ≤ greatest) :
    xs.foldlM f (state done) = .ok (state (done ++ xs.flatMap added)) := by
  induction xs generalizing done with
  | nil => rw [List.flatMap_nil, List.append_nil, List.foldlM_nil]; rfl
  | cons x xs ih =>
    rw [List.flatMap_cons, ← List.append_assoc] at hgreatest ⊢
    have hstep := h x List.mem_cons_self done
      (Nat.le_trans (Nat.le_add_right _ _) (List.length_append ▸ hgreatest))
    rw [List.foldlM_cons, hstep]
    exact ih (fun y hy ↦ h y (List.mem_cons_of_mem x hy)) _ hgreatest

namespace Quad

theorem ofFnM_eq_ok_iff {f : Fin 4 → Except ε α} {q : Quad α} :
    ofFnM f = .ok q ↔ ∀ i, f i = .ok (q.get i) := by
  constructor
  · intro h
    obtain ⟨a, ha, h⟩ := bind_eq_ok.1 h
    obtain ⟨b, hb, h⟩ := bind_eq_ok.1 h
    obtain ⟨c, hc, h⟩ := bind_eq_ok.1 h
    obtain ⟨d, hd, h⟩ := bind_eq_ok.1 h
    obtain rfl := Except.ok.inj h
    intro i
    match i with
    | 0 => exact ha
    | 1 => exact hb
    | 2 => exact hc
    | 3 => exact hd
  · intro h
    have h0 : f 0 = .ok q.topLeft := h 0
    have h1 : f 1 = .ok q.topRight := h 1
    have h2 : f 2 = .ok q.bottomLeft := h 2
    have h3 : f 3 = .ok q.bottomRight := h 3
    rw [ofFnM, h0, h1, h2, h3]
    rfl

/-- What holds of the answer of each lane holds in the lanes of the quad of answers. -/
theorem exists_ofFnM_eq_ok_and {f : Fin 4 → Except ε α} {P : Fin 4 → α → Prop}
    (h : ∀ i, ∃ a, f i = .ok a ∧ P i a) : ∃ q, ofFnM f = .ok q ∧ ∀ i, P i (q.get i) := by
  choose a ha hP using h
  refine ⟨ofFn a, ofFnM_eq_ok_iff.2 fun i ↦ ?_, fun i ↦ ?_⟩
  · rw [get_ofFn, ha]
  · rw [get_ofFn]
    exact hP i

theorem exists_ofFnM_eq_ok {f : Fin 4 → Except ε α} (h : ∀ i, ∃ a, f i = .ok a) :
    ∃ q, ofFnM f = .ok q := by
  choose a ha using h
  exact ⟨ofFn a, ofFnM_eq_ok_iff.2 fun i ↦ by rw [get_ofFn, ha]⟩

end Quad

end QuadSampler
