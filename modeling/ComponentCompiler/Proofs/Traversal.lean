import Mathlib.Data.List.Forall2

/-! A list gone through with a function that can fail: the values of all its elements, or the
failure of the first one that has none. -/

namespace ComponentCompiler

variable {ε α β : Type}

lemma eq_ok_of_isOk {x : Except ε α} (h : x.isOk = true) : ∃ a, x = .ok a := by
  cases x with
  | error e => cases h
  | ok a => exact ⟨a, rfl⟩

variable {f g : α → Except ε β} {xs : List α} {ys : List β}

lemma mapM_cons_of_ok {x : α} {y : β} (h : f x = .ok y) (xs : List α) :
    (x :: xs).mapM f = (xs.mapM f).map (y :: ·) := by
  rw [List.mapM_cons, h]
  cases xs.mapM f <;> rfl

lemma mapM_cons_of_error {x : α} {e : ε} (h : f x = .error e) (xs : List α) :
    (x :: xs).mapM f = .error e := by
  rw [List.mapM_cons, h]
  rfl

lemma mapM_eq_ok_iff : xs.mapM f = .ok ys ↔ List.Forall₂ (fun x y => f x = .ok y) xs ys := by
  induction xs generalizing ys with
  | nil =>
    rw [List.mapM_nil, List.forall₂_nil_left_iff]
    exact ⟨fun h => (Except.ok.inj h).symm, fun h => h ▸ rfl⟩
  | cons x xs ih =>
    rw [List.forall₂_cons_left_iff]
    cases hx : f x with
    | error e => simp [mapM_cons_of_error hx]
    | ok y =>
      rw [mapM_cons_of_ok hx]
      constructor
      · intro h
        cases hxs : xs.mapM f with
        | error e =>
          rw [hxs] at h
          cases h
        | ok ys =>
          rw [hxs] at h
          exact ⟨y, ys, rfl, ih.mp hxs, (Except.ok.inj h).symm⟩
      · rintro ⟨_, ys, hy, hys, rfl⟩
        cases hy
        rw [ih.mpr hys]
        rfl

lemma mapM_eq_error_iff {e : ε} :
    xs.mapM f = .error e ↔ ∃ before x after, xs = before ++ x :: after ∧
      (∀ y ∈ before, ∃ b, f y = .ok b) ∧ f x = .error e := by
  induction xs with
  | nil => simp [pure, Except.pure]
  | cons x xs ih =>
    cases hx : f x with
    | error e' =>
      rw [mapM_cons_of_error hx]
      constructor
      · intro h
        cases h
        exact ⟨[], x, xs, rfl, by simp, hx⟩
      · rintro ⟨_ | ⟨z, before⟩, y, after, hxs, hb, hy⟩
        · cases hxs
          cases hx.symm.trans hy
          rfl
        · cases hxs
          obtain ⟨b, hb⟩ := hb x List.mem_cons_self
          cases hx.symm.trans hb
    | ok b =>
      have htail : (xs.mapM f).map (b :: ·) = .error e ↔ xs.mapM f = .error e := by
        cases xs.mapM f <;> simp [Except.map]
      rw [mapM_cons_of_ok hx, htail, ih]
      constructor
      · rintro ⟨before, y, after, rfl, hb, hy⟩
        exact ⟨x :: before, y, after, rfl, List.forall_mem_cons.mpr ⟨⟨b, hx⟩, hb⟩, hy⟩
      · rintro ⟨_ | ⟨z, before⟩, y, after, hxs, hb, hy⟩
        · cases hxs
          cases hx.symm.trans hy
        · cases hxs
          exact ⟨before, y, after, rfl, (List.forall_mem_cons.mp hb).2, hy⟩

lemma mapM_eq_ok_of_imp (h : xs.mapM f = .ok ys)
    (hfg : ∀ x ∈ xs, ∀ y, f x = .ok y → g x = .ok y) : xs.mapM g = .ok ys := by
  have hboth := (List.forall₂_and_left xs ys).mpr ⟨hfg, mapM_eq_ok_iff.mp h⟩
  exact mapM_eq_ok_iff.mpr (hboth.imp fun x y hxy => hxy.1 y hxy.2)

lemma exists_mapM (h : ∀ x ∈ xs, ∃ y, f x = .ok y ∧ g x = .ok y) :
    ∃ ys, xs.mapM f = .ok ys ∧ xs.mapM g = .ok ys := by
  cases hxs : xs.mapM f with
  | error e =>
    obtain ⟨before, x, after, rfl, -, hx⟩ := mapM_eq_error_iff.mp hxs
    obtain ⟨y, hf, -⟩ := h x (by simp)
    cases hx.symm.trans hf
  | ok ys =>
    refine ⟨ys, rfl, mapM_eq_ok_of_imp hxs fun x hx y hy => ?_⟩
    obtain ⟨y', hf, hg⟩ := h x hx
    cases hy.symm.trans hf
    exact hg

end ComponentCompiler
