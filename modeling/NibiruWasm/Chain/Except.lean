/-
Inversion lemmas for `Except`, for any error and value types.

Handlers are `do` blocks in `Except`; a proof about a committed
transaction starts from `handler … = .ok r` and peels the block apart
one `←` at a time. These lemmas say what each layer's success means, so
that the peeling is `simp only [bind_eq_ok, …]` and `obtain`, never an
unfolding of `Except.bind`.
-/
import Mathlib

namespace NibiruWasm.Chain

variable {ε ε' α β : Type}

@[simp] theorem bind_eq_ok {x : Except ε α} {f : α → Except ε β} {b : β} :
    x >>= f = .ok b ↔ ∃ a, x = .ok a ∧ f a = .ok b := by
  cases x <;> simp [bind, Except.bind]

@[simp] theorem mapError_eq_ok {x : Except ε α} {g : ε → ε'} {a : α} :
    x.mapError g = .ok a ↔ x = .ok a := by
  cases x <;> simp [Except.mapError]

@[simp] theorem map_eq_ok {x : Except ε α} {f : α → β} {b : β} :
    x.map f = .ok b ↔ ∃ a, x = .ok a ∧ f a = b := by
  cases x <;> simp [Except.map]

@[simp] theorem fmap_eq_ok {x : Except ε α} {f : α → β} {b : β} :
    f <$> x = .ok b ↔ ∃ a, x = .ok a ∧ f a = b := by
  cases x <;> simp [Functor.map, Except.map]

@[simp] theorem throw_bind {e : ε} {f : α → Except ε β} :
    (throw e >>= f : Except ε β) = throw e := rfl

@[simp] theorem ok_bind {a : α} {f : α → Except ε β} :
    (Except.ok a >>= f : Except ε β) = f a := rfl

@[simp] theorem error_bind {e : ε} {f : α → Except ε β} :
    (Except.error e >>= f : Except ε β) = .error e := rfl

@[simp] theorem fmap_error {e : ε} {f : α → β} :
    (f <$> Except.error e : Except ε β) = .error e := rfl

@[simp] theorem mapError_ok {a : α} {g : ε → ε'} :
    (Except.ok a : Except ε α).mapError g = .ok a := rfl

@[simp] theorem mapError_error {e : ε} {g : ε → ε'} :
    (Except.error e : Except ε α).mapError g = .error (g e) := rfl

/-- A guard: the block after `if c then throw e` runs exactly when `c`
fails. -/
@[simp] theorem ite_throw_eq_ok {c : Prop} [Decidable c] {e : ε} {x : Except ε α} {a : α} :
    (if c then throw e else x) = .ok a ↔ ¬c ∧ x = .ok a := by
  by_cases hc : c
  · simp [hc]
  · simp [hc]

@[simp] theorem pure_eq_ok {a b : α} :
    (pure a : Except ε α) = .ok b ↔ a = b := by
  simp [pure, Except.pure]

@[simp] theorem throw_ne_ok {e : ε} {a : α} :
    (throw e : Except ε α) ≠ .ok a := by
  simp [throw, throwThe, MonadExceptOf.throw]

@[simp] theorem error_ne_ok {e : ε} {a : α} :
    (Except.error e : Except ε α) ≠ .ok a := by
  simp

/-- A monadic fold whose every committed step is a plain step commits
the plain fold. -/
theorem foldlM_eq_ok {σ : Type} {g : σ → α → Except ε σ} {f : σ → α → σ}
    (hg : ∀ m a r, g m a = .ok r → r = f m a) :
    ∀ {l : List α} {m r : σ}, l.foldlM g m = .ok r → r = l.foldl f m
  | [], m, r, h => by
      simp only [List.foldlM_nil, pure_eq_ok] at h
      exact h.symm
  | a :: l, m, r, h => by
      rw [List.foldlM_cons, bind_eq_ok] at h
      obtain ⟨m', hm', hrest⟩ := h
      rw [List.foldl_cons, ← hg m a m' hm']
      exact foldlM_eq_ok hg hrest

/-- A `mapM` whose results `g` maps back to their inputs commits to a
list that `g` maps back to the input list, each element the image of
its own input. -/
theorem mapM_eq_ok {f : α → Except ε β} {g : β → α} (hg : ∀ a b, f a = .ok b → g b = a) :
    ∀ {l : List α} {bs : List β}, l.mapM f = .ok bs → bs.map g = l ∧ ∀ b ∈ bs, f (g b) = .ok b
  | [], bs, h => by
      simp only [List.mapM_nil, pure_eq_ok] at h
      subst h
      simp
  | x :: l, bs, h => by
      simp only [List.mapM_cons, bind_eq_ok, pure_eq_ok] at h
      obtain ⟨b, hb, bs', hbs', rfl⟩ := h
      obtain ⟨hmap, hall⟩ := mapM_eq_ok hg hbs'
      refine ⟨by rw [List.map_cons, hg x b hb, hmap], ?_⟩
      intro c hc
      rcases List.mem_cons.mp hc with rfl | hc
      · rw [hg x c hb]
        exact hb
      · exact hall c hc

/-- A `mapM` commits exactly when every element does, each to the
result at its own position. -/
theorem mapM_eq_ok_iff {f : α → Except ε β} :
    ∀ {l : List α} {bs : List β}, l.mapM f = .ok bs ↔ List.Forall₂ (fun a b => f a = .ok b) l bs
  | [], bs => by
      rw [List.mapM_nil, pure_eq_ok, List.forall₂_nil_left_iff, eq_comm]
  | x :: l, bs => by
      simp only [List.mapM_cons, bind_eq_ok, pure_eq_ok, List.forall₂_cons_left_iff,
        mapM_eq_ok_iff]
      constructor
      · rintro ⟨b, hb, bs', hbs', rfl⟩
        exact ⟨b, bs', hb, hbs', rfl⟩
      · rintro ⟨b, bs', hb, hbs', rfl⟩
        exact ⟨b, hb, bs', hbs', rfl⟩

/-- `mapM` reads its function on the list's elements only. -/
theorem mapM_congr {f g : α → Except ε β} :
    ∀ {l : List α}, (∀ x ∈ l, f x = g x) → l.mapM f = l.mapM g
  | [], _ => rfl
  | x :: l, h => by
      rw [List.mapM_cons, List.mapM_cons, h x List.mem_cons_self,
        mapM_congr fun y hy => h y (List.mem_cons_of_mem x hy)]

/-- The last result of a committed `mapM` is the result of its last
element. -/
theorem getLast?_of_mapM_eq_ok {f : α → Except ε β} {l : List α} {bs : List β} {b : β}
    (h : l.mapM f = .ok bs) (hb : bs.getLast? = some b) :
    ∃ a, l.getLast? = some a ∧ f a = .ok b := by
  -- the last elements are the first ones of the reversed lists
  have hrev := List.forall₂_reverse_iff.mpr (mapM_eq_ok_iff.mp h)
  rw [← List.head?_reverse] at hb ⊢
  generalize l.reverse = lr at hrev ⊢
  generalize bs.reverse = bsr at hrev hb
  cases hrev with
  | nil => simp at hb
  | cons hab _ =>
      rw [List.head?_cons, Option.some.injEq] at hb
      subst hb
      exact ⟨_, rfl, hab⟩

/-- The invariant rule of a monadic fold: a property that every
committed step keeps holds after the fold. -/
theorem foldlM_invariant {σ : Type} {f : σ → α → Except ε σ} (P : σ → Prop) :
    ∀ {l : List α} {s s' : σ}, (∀ a ∈ l, ∀ t t', P t → f t a = .ok t' → P t') →
      P s → l.foldlM f s = .ok s' → P s'
  | [], s, s', _, hs, h => by
      simp only [List.foldlM_nil, pure_eq_ok] at h
      exact h ▸ hs
  | a :: l, s, s', hstep, hs, h => by
      rw [List.foldlM_cons, bind_eq_ok] at h
      obtain ⟨t, ht, hrest⟩ := h
      exact foldlM_invariant P (fun b hb => hstep b (List.mem_cons_of_mem a hb))
        (hstep a List.mem_cons_self s t hs ht) hrest

/-- A monadic fold over two lists commits when the fold over the first
does and the fold over the second commits from there. -/
theorem foldlM_append_eq_ok {σ : Type} {f : σ → α → Except ε σ} {l₁ l₂ : List α} {s s' : σ} :
    (l₁ ++ l₂).foldlM f s = .ok s' ↔ ∃ t, l₁.foldlM f s = .ok t ∧ l₂.foldlM f t = .ok s' := by
  rw [List.foldlM_append, bind_eq_ok]

end NibiruWasm.Chain
