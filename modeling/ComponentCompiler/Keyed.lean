/-!
Keyed lists: values under pairwise distinct keys, in the order in which the keys first came.
-/

namespace ComponentCompiler

abbrev Keyed (κ α : Type) := List (κ × α)

namespace Keyed

variable {κ α : Type} [DecidableEq κ]

def find? (k : κ) : Keyed κ α → Option α
  | [] => none
  | (k', a) :: rest => if k' = k then some a else find? k rest

def put (k : κ) (a : α) : Keyed κ α → Keyed κ α
  | [] => [(k, a)]
  | (k', a') :: rest => if k' = k then (k, a) :: rest else (k', a') :: put k a rest

def keys (m : Keyed κ α) : List κ :=
  m.map Prod.fst

def values (m : Keyed κ α) : List α :=
  m.map Prod.snd

def ofPairs (pairs : List (κ × α)) : Keyed κ α :=
  pairs.foldl (fun m p => put p.1 p.2 m) []

@[simp] theorem find?_put_self (k : κ) (a : α) (m : Keyed κ α) : find? k (put k a m) = some a := by
  induction m with
  | nil => simp [put, find?]
  | cons p rest ih => by_cases h : p.1 = k <;> simp [put, find?, h, ih]

theorem find?_put_of_ne {k j : κ} (h : j ≠ k) (a : α) (m : Keyed κ α) :
    find? j (put k a m) = find? j m := by
  induction m with
  | nil => simp [put, find?, h.symm]
  | cons p rest ih =>
    by_cases hp : p.1 = k
    · simp [put, find?, hp, h.symm]
    · by_cases hj : p.1 = j <;> simp [put, find?, hp, hj, h, ih]

theorem put_of_find? {k : κ} {a : α} {m : Keyed κ α} (h : m.find? k = some a) : m.put k a = m := by
  induction m with
  | nil => cases h
  | cons p rest ih =>
    obtain ⟨k', a'⟩ := p
    by_cases hk : k' = k
    · subst hk
      have ha : a' = a := by simpa [find?] using h
      simp [put, ha]
    · have hrest : find? k rest = some a := by simpa [find?, hk] using h
      simp [put, hk, ih hrest]

theorem put_put (k : κ) (a b : α) (m : Keyed κ α) : put k b (put k a m) = put k b m := by
  induction m with
  | nil => simp [put]
  | cons p rest ih => by_cases h : p.1 = k <;> simp [put, h, ih]

theorem find?_eq_none_iff {k : κ} {m : Keyed κ α} : find? k m = none ↔ k ∉ keys m := by
  induction m with
  | nil => simp [find?, keys]
  | cons p rest ih =>
    by_cases h : p.1 = k
    · simp [find?, keys, h]
    · simpa [find?, keys, h, Ne.symm h] using ih

theorem keys_put (k : κ) (a : α) (m : Keyed κ α) :
    keys (put k a m) = if k ∈ keys m then keys m else keys m ++ [k] := by
  induction m with
  | nil => simp [put, keys]
  | cons p rest ih =>
    by_cases h : p.1 = k
    · simp [put, keys, h]
    · have ih' : List.map Prod.fst (put k a rest) =
          if k ∈ List.map Prod.fst rest then List.map Prod.fst rest
          else List.map Prod.fst rest ++ [k] := ih
      by_cases hk : k ∈ List.map Prod.fst rest <;>
        simp only [put, keys, h, if_false, List.map_cons, ih', hk, if_true, List.mem_cons,
          Ne.symm h, false_or, List.cons_append]

theorem nodup_keys_put {k : κ} {a : α} {m : Keyed κ α} (h : (keys m).Nodup) :
    (keys (put k a m)).Nodup := by
  rw [keys_put]
  split
  · exact h
  · next hk =>
    refine List.nodup_append.2 ⟨h, by simp, fun b hb c hc => ?_⟩
    rw [List.mem_singleton.1 hc]
    rintro rfl
    exact hk hb

end Keyed

end ComponentCompiler
