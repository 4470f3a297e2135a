import Mathlib.Data.List.Forall2

/-!
# Computations that can fail

A chain of steps that each may fail succeeds exactly when every step does.  The
lemmas here take such a chain apart at its success: a step and what follows it
(`bind_eq_ok`), a change of the answer or of the error, a walk through a list
(`mapM_eq_ok_iff`), and a walk that carries a state (`foldlM_induction`).

A walk that fails does so at the first element where it can (`mapM_eq_error_iff`, and
`foldlM_eq_error_iff` if it carries a state).  `Earliest` says of a list that it has such
an element.

What is promised of an answer and what of an error stand side by side in `Ends`, so a chain
of steps gets a promise for each of its ends from those of its steps.

Two computations are `Alike` if they succeed or fail together, with related answers or
errors.  A chain of steps is like another chain if the steps are.
-/
namespace Mips

variable {ε ε' δ δ' α α' β β' σ : Type}

theorem bind_eq_ok {x : Except ε α} {f : α → Except ε β} {b : β} :
    (x >>= f) = .ok b ↔ ∃ a, x = .ok a ∧ f a = .ok b := by
  cases x <;> simp [bind, Except.bind]

theorem bind_eq_error {x : Except ε α} {f : α → Except ε β} {e : ε} :
    (x >>= f) = .error e ↔ x = .error e ∨ ∃ a, x = .ok a ∧ f a = .error e := by
  cases x <;> simp [bind, Except.bind]

theorem map_eq_ok {x : Except ε α} {f : α → β} {b : β} :
    x.map f = .ok b ↔ ∃ a, x = .ok a ∧ f a = b := by
  cases x <;> simp [Except.map]

theorem map_eq_error {x : Except ε α} {f : α → β} {e : ε} :
    x.map f = .error e ↔ x = .error e := by
  cases x <;> simp [Except.map]

theorem mapError_eq_ok {x : Except ε α} {f : ε → ε'} {a : α} :
    x.mapError f = .ok a ↔ x = .ok a := by
  cases x <;> simp [Except.mapError]

theorem mapError_eq_error {x : Except ε α} {f : ε → ε'} {e : ε'} :
    x.mapError f = .error e ↔ ∃ e₀, x = .error e₀ ∧ f e₀ = e := by
  cases x <;> simp [Except.mapError]

theorem toOption_eq_some {x : Except ε α} {a : α} : x.toOption = some a ↔ x = .ok a := by
  cases x <;> simp [Except.toOption]

/-- A walk through a list succeeds exactly when it succeeds at every element, and
the answers come in the order of the elements. -/
theorem mapM_eq_ok_iff {f : α → Except ε β} {l : List α} {r : List β} :
    l.mapM f = .ok r ↔ List.Forall₂ (fun a b => f a = .ok b) l r := by
  induction l generalizing r with
  | nil =>
    rw [List.mapM_nil, List.forall₂_nil_left_iff]
    exact ⟨fun h => (Except.ok.inj h).symm, fun h => congrArg Except.ok h.symm⟩
  | cons a l ih =>
    rw [List.mapM_cons, List.forall₂_cons_left_iff, bind_eq_ok]
    constructor
    · rintro ⟨b, hb, h⟩
      obtain ⟨bs, hbs, h⟩ := bind_eq_ok.mp h
      exact ⟨b, bs, hb, ih.mp hbs, (Except.ok.inj h).symm⟩
    · rintro ⟨b, bs, hb, hbs, rfl⟩
      exact ⟨b, hb, bind_eq_ok.mpr ⟨bs, ih.mpr hbs, rfl⟩⟩

/-- Every answer of a walk is the answer at some element. -/
theorem exists_of_mem_of_mapM {f : α → Except ε β} {l : List α} {r : List β}
    (h : l.mapM f = .ok r) {b : β} (hb : b ∈ r) : ∃ a ∈ l, f a = .ok b := by
  induction mapM_eq_ok_iff.mp h with
  | nil => cases hb
  | @cons a _ _ _ hab hrest ih =>
    rcases List.mem_cons.mp hb with rfl | hb
    · exact ⟨a, List.mem_cons_self, hab⟩
    · obtain ⟨a', ha', h'⟩ := ih (mapM_eq_ok_iff.mpr hrest) hb
      exact ⟨a', List.mem_cons_of_mem a ha', h'⟩

/-- A walk that succeeds has an answer for every element. -/
theorem exists_mem_of_mapM {f : α → Except ε β} {l : List α} {r : List β}
    (h : l.mapM f = .ok r) {a : α} (ha : a ∈ l) : ∃ b ∈ r, f a = .ok b := by
  induction mapM_eq_ok_iff.mp h with
  | nil => cases ha
  | @cons _ b _ _ hab hrest ih =>
    rcases List.mem_cons.mp ha with rfl | ha
    · exact ⟨b, List.mem_cons_self, hab⟩
    · obtain ⟨b', hb', h'⟩ := ih (mapM_eq_ok_iff.mpr hrest) ha
      exact ⟨b', List.mem_cons_of_mem b hb', h'⟩

/-! ## The first failure -/

/-- Some element of a list has the property `P`, and every element before it has the
property `Q`. -/
def Earliest (P Q : α → Prop) (l : List α) : Prop :=
  ∃ (i : Nat) (a : α), l[i]? = some a ∧ P a ∧ ∀ j < i, ∀ b, l[j]? = some b → Q b

section
variable {P Q : α → Prop}

theorem not_earliest_nil : ¬ Earliest P Q [] := by
  rintro ⟨i, a, ha, -⟩
  rw [List.getElem?_nil] at ha
  cases ha

theorem earliest_cons {a : α} {l : List α} :
    Earliest P Q (a :: l) ↔ P a ∨ Q a ∧ Earliest P Q l := by
  constructor
  · rintro ⟨i, b, hb, hP, hQ⟩
    cases i with
    | zero =>
      rw [List.getElem?_cons_zero, Option.some.injEq] at hb
      exact .inl (hb ▸ hP)
    | succ i =>
      refine .inr ⟨hQ 0 (Nat.zero_lt_succ i) a rfl, i, b, hb, hP, fun j hj c hc => ?_⟩
      exact hQ (j + 1) (Nat.succ_lt_succ hj) c hc
  · rintro (hP | ⟨hQa, i, b, hb, hP, hQ⟩)
    · exact ⟨0, a, rfl, hP, fun j hj => absurd hj (Nat.not_lt_zero j)⟩
    · refine ⟨i + 1, b, hb, hP, fun j hj c hc => ?_⟩
      cases j with
      | zero =>
        rw [List.getElem?_cons_zero, Option.some.injEq] at hc
        exact hc ▸ hQa
      | succ j => exact hQ j (Nat.lt_of_succ_lt_succ hj) c hc

/-- In a list that is ordered by a key, the first element is the one with the least
key. -/
theorem earliest_iff_of_pairwise {key : α → Nat} {l : List α}
    (hl : l.Pairwise fun a b => key a < key b) :
    Earliest P Q l ↔ ∃ a ∈ l, P a ∧ ∀ b ∈ l, key b < key a → Q b := by
  induction hl with
  | nil => exact iff_of_false not_earliest_nil fun ⟨a, ha, _⟩ => List.not_mem_nil ha
  | @cons a l ha _ ih =>
    rw [earliest_cons, ih]
    constructor
    · rintro (hP | ⟨hQa, c, hc, hP, hQ⟩)
      · refine ⟨a, List.mem_cons_self, hP, fun b hb hlt => ?_⟩
        rcases List.mem_cons.mp hb with rfl | hb
        · exact absurd hlt (Nat.lt_irrefl _)
        · exact absurd hlt (Nat.lt_asymm (ha b hb))
      · refine ⟨c, List.mem_cons_of_mem a hc, hP, fun b hb hlt => ?_⟩
        rcases List.mem_cons.mp hb with rfl | hb
        · exact hQa
        · exact hQ b hb hlt
    · rintro ⟨c, hc, hP, hQ⟩
      rcases List.mem_cons.mp hc with rfl | hc
      · exact .inl hP
      · refine .inr ⟨hQ a List.mem_cons_self (ha c hc), c, hc, hP, fun b hb => ?_⟩
        exact hQ b (List.mem_cons_of_mem a hb)

theorem earliest_zipIdx {P Q : α × Nat → Prop} {l : List α} : Earliest P Q l.zipIdx ↔
    ∃ i a, l[i]? = some a ∧ P (a, i) ∧ ∀ j < i, ∀ b, l[j]? = some b → Q (b, j) := by
  simp only [Earliest, List.getElem?_zipIdx, Nat.zero_add, Option.map_eq_some_iff]
  constructor
  · rintro ⟨i, _, ⟨a, ha, rfl⟩, hP, hQ⟩
    exact ⟨i, a, ha, hP, fun j hj b hb => hQ j hj _ ⟨b, hb, rfl⟩⟩
  · rintro ⟨i, a, ha, hP, hQ⟩
    refine ⟨i, _, ⟨a, ha, rfl⟩, hP, ?_⟩
    rintro j hj _ ⟨b, hb, rfl⟩
    exact hQ j hj b hb

/-- The places of a list are in order. -/
theorem pairwise_zipIdx (l : List α) (n : Nat) :
    (l.zipIdx n).Pairwise fun a b => a.2 < b.2 := by
  have h : ((l.zipIdx n).map Prod.snd).Pairwise (· < ·) := by
    rw [List.zipIdx_map_snd]
    exact List.pairwise_lt_range'
  exact List.pairwise_map.mp h

end

/-- **A walk through a list fails with the error of the first element where it
fails.** -/
theorem mapM_eq_error_iff {f : α → Except ε β} {l : List α} {e : ε} :
    l.mapM f = .error e ↔ Earliest (f · = .error e) (∃ b, f · = .ok b) l := by
  induction l with
  | nil => exact iff_of_false nofun not_earliest_nil
  | cons a l ih =>
    have hrest : ∀ b : β, (do let bs ← l.mapM f; pure (b :: bs)) = Except.error e ↔
        l.mapM f = .error e := by
      intro b
      rw [bind_eq_error]
      exact or_iff_left fun ⟨_, _, h⟩ => nomatch h
    rw [List.mapM_cons, bind_eq_error, earliest_cons, ← ih]
    simp only [hrest, exists_and_right]

theorem exists_mapM_iff {f : α → Except ε β} {l : List α} :
    (∃ r, l.mapM f = .ok r) ↔ ∀ a ∈ l, ∃ b, f a = .ok b := by
  constructor
  · rintro ⟨r, h⟩ a ha
    obtain ⟨b, -, hb⟩ := exists_mem_of_mapM h ha
    exact ⟨b, hb⟩
  · intro h
    cases hr : l.mapM f with
    | ok r => exact ⟨r, rfl⟩
    | error e =>
      obtain ⟨i, a, ha, herror, -⟩ := mapM_eq_error_iff.mp hr
      obtain ⟨b, hb⟩ := h a (List.mem_of_getElem? ha)
      rw [herror] at hb
      cases hb

/-- What holds of a state at first and is kept by every step holds of the state at
the end. -/
theorem foldlM_induction {f : σ → α → Except ε σ} {P : σ → Prop} {l : List α} {s s' : σ}
    (hstart : P s) (hstep : ∀ s s' a, a ∈ l → P s → f s a = .ok s' → P s')
    (h : l.foldlM f s = .ok s') : P s' := by
  induction l generalizing s with
  | nil =>
    cases h
    exact hstart
  | cons a l ih =>
    rw [List.foldlM_cons] at h
    obtain ⟨t, ht, h⟩ := bind_eq_ok.mp h
    exact ih (hstep s t a List.mem_cons_self hstart ht)
      (fun s s' b hb => hstep s s' b (List.mem_cons_of_mem a hb)) h

/-- The computation succeeds with an answer that has the property `P`, or fails with an
error that has the property `Q`. -/
inductive Ends (P : α → Prop) (Q : ε → Prop) : Except ε α → Prop
  | ok {a : α} (h : P a) : Ends P Q (.ok a)
  | error {e : ε} (h : Q e) : Ends P Q (.error e)

namespace Ends

variable {P : α → Prop} {P' : β → Prop} {Q Q' : ε → Prop} {x : Except ε α}

theorem bind {f : α → Except ε β} (h : Ends P Q x) (hf : ∀ a, P a → Ends P' Q (f a)) :
    Ends P' Q (x >>= f) := by
  cases h with
  | ok ha => exact hf _ ha
  | error he => exact .error he

theorem map {f : α → β} (h : Ends P Q x) (hf : ∀ a, P a → P' (f a)) : Ends P' Q (x.map f) := by
  cases h with
  | ok ha => exact .ok (hf _ ha)
  | error he => exact .error he

theorem imp {P' : α → Prop} (h : Ends P Q x) (hP : ∀ a, P a → P' a) (hQ : ∀ e, Q e → Q' e) :
    Ends P' Q' x := by
  cases h with
  | ok ha => exact .ok (hP _ ha)
  | error he => exact .error (hQ _ he)

theorem of_eq_ok {a : α} (h : Ends P Q x) (hx : x = .ok a) : P a := by
  subst hx
  cases h with
  | ok ha => exact ha

theorem of_eq_error {e : ε} (h : Ends P Q x) (hx : x = .error e) : Q e := by
  subst hx
  cases h with
  | error he => exact he

end Ends

/-! ## Two computations side by side -/

/-- Both computations succeed, with answers that are related, or both fail, with errors
that are. -/
inductive Alike (E : ε → ε' → Prop) (A : α → α' → Prop) : Except ε α → Except ε' α' → Prop
  | ok {a : α} {a' : α'} (h : A a a') : Alike E A (.ok a) (.ok a')
  | error {e : ε} {e' : ε'} (h : E e e') : Alike E A (.error e) (.error e')

namespace Alike

variable {E : ε → ε' → Prop} {A : α → α' → Prop} {B : β → β' → Prop} {x : Except ε α}
  {x' : Except ε' α'}

theorem bind {f : α → Except ε β} {f' : α' → Except ε' β'} (h : Alike E A x x')
    (hf : ∀ a a', A a a' → Alike E B (f a) (f' a')) : Alike E B (x >>= f) (x' >>= f') := by
  cases h with
  | ok ha => exact hf _ _ ha
  | error he => exact .error he

theorem map {f : α → β} {f' : α' → β'} (h : Alike E A x x')
    (hf : ∀ a a', A a a' → B (f a) (f' a')) : Alike E B (x.map f) (x'.map f') := by
  cases h with
  | ok ha => exact .ok (hf _ _ ha)
  | error he => exact .error he

theorem mapError {F : δ → δ' → Prop} {f : ε → δ} {f' : ε' → δ'} (h : Alike E A x x')
    (hf : ∀ e e', E e e' → F (f e) (f' e')) : Alike F A (x.mapError f) (x'.mapError f') := by
  cases h with
  | ok ha => exact .ok ha
  | error he => exact .error (hf _ _ he)

theorem exists_ok {a : α} (h : Alike E A x x') (hx : x = .ok a) : ∃ a', x' = .ok a' ∧ A a a' := by
  subst hx
  cases h with
  | ok ha => exact ⟨_, rfl, ha⟩

theorem exists_error {e : ε} (h : Alike E A x x') (hx : x = .error e) :
    ∃ e', x' = .error e' ∧ E e e' := by
  subst hx
  cases h with
  | error he => exact ⟨_, rfl, he⟩

/-- Walks through related lists are alike if their steps are. -/
theorem mapM {f : α → Except ε β} {f' : α' → Except ε' β'} {l : List α} {l' : List α'}
    (h : List.Forall₂ A l l') (hf : ∀ a a', A a a' → Alike E B (f a) (f' a')) :
    Alike E (List.Forall₂ B) (l.mapM f) (l'.mapM f') := by
  induction h with
  | nil => exact .ok .nil
  | cons ha _ ih =>
    rw [List.mapM_cons, List.mapM_cons]
    exact (hf _ _ ha).bind fun b b' hb => ih.bind fun bs bs' hbs => .ok (.cons hb hbs)

end Alike

end Mips
