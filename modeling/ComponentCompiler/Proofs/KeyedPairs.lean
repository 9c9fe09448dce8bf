import ComponentCompiler.Keyed
import Mathlib.Data.List.Dedup
import Mathlib.Data.List.Induction

/-! Keyed lists built pair by pair: the keys stand in the order in which they first came, and each
has the value that came last. -/

namespace ComponentCompiler.Keyed

variable {κ α : Type} [DecidableEq κ]

lemma find?_map {ι β : Type} [DecidableEq ι] {g : κ → ι} (hg : Function.Injective g) (f : α → β)
    (k : κ) (m : Keyed κ α) :
    find? (g k) (m.map fun entry => (g entry.1, f entry.2)) = (find? k m).map f := by
  induction m with
  | nil => rfl
  | cons entry m ih =>
    simp only [List.map_cons, find?, hg.eq_iff, ih]
    split <;> rfl

lemma exists_put_of_find? {k : κ} {a : α} {m : Keyed κ α}
    (h : m.find? k = some a) (b : α) :
    ∃ before after, m = before ++ (k, a) :: after ∧ m.put k b = before ++ (k, b) :: after := by
  induction m with
  | nil => cases h
  | cons p rest ih =>
    obtain ⟨k', a'⟩ := p
    by_cases hk : k' = k
    · subst hk
      rw [find?, if_pos rfl] at h
      obtain rfl := Option.some.inj h
      exact ⟨[], rest, rfl, by rw [put, if_pos rfl]; rfl⟩
    · rw [find?, if_neg hk] at h
      obtain ⟨before, after, hrest, hput⟩ := ih h
      refine ⟨(k', a') :: before, after, by rw [hrest]; rfl, ?_⟩
      rw [put, if_neg hk, hput]
      rfl

lemma map_find?_keys {m : Keyed κ α} (h : (keys m).Nodup) :
    (keys m).map (fun k => find? k m) = (values m).map some := by
  induction m with
  | nil => rfl
  | cons p rest ih =>
    obtain ⟨hp, hrest⟩ := List.nodup_cons.mp h
    have hskip : ∀ k ∈ keys rest, find? k (p :: rest) = find? k rest := by
      intro k hk
      rw [find?, if_neg]
      rintro rfl
      exact hp hk
    have hhead : find? p.1 (p :: rest) = some p.2 := by simp [find?]
    calc (keys (p :: rest)).map (fun k => find? k (p :: rest))
        = find? p.1 (p :: rest) :: (keys rest).map (fun k => find? k (p :: rest)) := rfl
      _ = some p.2 :: (keys rest).map (fun k => find? k rest) := by
          rw [hhead, List.map_congr_left hskip]
      _ = some p.2 :: (values rest).map some := by rw [ih hrest]

lemma filterMap_find?_keys {m : Keyed κ α} (h : (keys m).Nodup) :
    (keys m).filterMap (fun k => find? k m) = values m := by
  have hvalues := congrArg (List.filterMap id) (map_find?_keys h)
  simpa [List.filterMap_map, Function.comp_def] using hvalues

lemma ofPairs_concat (pairs : List (κ × α)) (p : κ × α) :
    ofPairs (pairs ++ [p]) = put p.1 p.2 (ofPairs pairs) := by
  rw [ofPairs, List.foldl_append]
  rfl

lemma mem_put {k : κ} {a : α} {m : Keyed κ α} {p : κ × α} (h : p ∈ put k a m) :
    p = (k, a) ∨ p ∈ m := by
  induction m with
  | nil => exact Or.inl (List.mem_singleton.mp h)
  | cons q rest ih =>
    rw [put] at h
    split at h
    · rcases List.mem_cons.mp h with rfl | hp
      · exact Or.inl rfl
      · exact Or.inr (List.mem_cons_of_mem _ hp)
    · rcases List.mem_cons.mp h with rfl | hp
      · exact Or.inr List.mem_cons_self
      · exact (ih hp).imp_right (List.mem_cons_of_mem _)

lemma put_of_notMem {k : κ} {m : Keyed κ α} (h : k ∉ keys m) (a : α) :
    put k a m = m ++ [(k, a)] := by
  induction m with
  | nil => rfl
  | cons q rest ih =>
    obtain ⟨hq, hr⟩ := not_or.mp (mt List.mem_cons.mpr h)
    rw [put, if_neg (Ne.symm hq), ih hr, List.cons_append]

lemma mem_of_mem_ofPairs {pairs : List (κ × α)} {p : κ × α} (h : p ∈ ofPairs pairs) :
    p ∈ pairs := by
  induction pairs using List.reverseRecOn with
  | nil => exact h
  | append_singleton pairs q ih =>
    rw [ofPairs_concat] at h
    rcases mem_put h with rfl | hp
    · exact List.mem_append_right _ (List.mem_singleton.mpr rfl)
    · exact List.mem_append_left _ (ih hp)

lemma nodup_keys_ofPairs (pairs : List (κ × α)) : (keys (ofPairs pairs)).Nodup := by
  induction pairs using List.reverseRecOn with
  | nil => exact List.nodup_nil
  | append_singleton pairs p ih =>
    rw [ofPairs_concat]
    exact nodup_keys_put ih

lemma mem_keys_iff {k : κ} {m : Keyed κ α} : k ∈ keys m ↔ ∃ a, find? k m = some a := by
  rw [← not_iff_not, ← find?_eq_none_iff, Option.eq_none_iff_forall_ne_some, not_exists]

lemma mem_keys_put {k j : κ} {a : α} {m : Keyed κ α} :
    j ∈ keys (put k a m) ↔ j ∈ keys m ∨ j = k := by
  rw [keys_put]
  split
  · next h =>
    refine ⟨Or.inl, ?_⟩
    rintro (hj | rfl)
    · exact hj
    · exact h
  · rw [List.mem_append, List.mem_singleton]

lemma mem_keys_ofPairs {pairs : List (κ × α)} {k : κ} :
    k ∈ keys (ofPairs pairs) ↔ k ∈ pairs.map Prod.fst := by
  induction pairs using List.reverseRecOn with
  | nil => exact Iff.rfl
  | append_singleton pairs p ih =>
    rw [ofPairs_concat, mem_keys_put, ih, List.map_append, List.mem_append, List.map_singleton,
      List.mem_singleton]

lemma keys_ofPairs (pairs : List (κ × α)) :
    keys (ofPairs pairs) = (pairs.map Prod.fst).reverse.dedup.reverse := by
  induction pairs using List.reverseRecOn with
  | nil => rfl
  | append_singleton pairs p ih =>
    rw [ofPairs_concat, keys_put, ih, List.map_append, List.map_singleton, List.reverse_append,
      List.reverse_singleton, List.singleton_append]
    by_cases h : p.1 ∈ (pairs.map Prod.fst).reverse
    · rw [List.dedup_cons_of_mem h, if_pos (by simpa using h)]
    · rw [List.dedup_cons_of_notMem h, if_neg (by simpa using h), List.reverse_cons]

lemma find?_ofPairs (pairs : List (κ × α)) (k : κ) :
    find? k (ofPairs pairs) = (pairs.reverse.find? (·.1 = k)).map Prod.snd := by
  induction pairs using List.reverseRecOn with
  | nil => rfl
  | append_singleton pairs p ih =>
    rw [ofPairs_concat, List.reverse_append, List.reverse_singleton, List.singleton_append]
    by_cases h : p.1 = k
    · rw [h, find?_put_self, List.find?_cons_of_pos (by simpa using h)]
      rfl
    · rw [find?_put_of_ne (Ne.symm h), ih, List.find?_cons_of_neg (by simpa using h)]

lemma ofPairs_of_nodup {pairs : List (κ × α)} (h : (pairs.map Prod.fst).Nodup) :
    ofPairs pairs = pairs := by
  induction pairs using List.reverseRecOn with
  | nil => rfl
  | append_singleton pairs p ih =>
    rw [List.map_append, List.map_singleton, List.nodup_append] at h
    obtain ⟨hpairs, -, hdisjoint⟩ := h
    have hnew : p.1 ∉ keys (ofPairs pairs) := by
      intro hm
      exact hdisjoint p.1 (mem_keys_ofPairs.mp hm) p.1 (List.mem_singleton.mpr rfl) rfl
    rw [ofPairs_concat, put_of_notMem hnew, ih hpairs]

lemma pairwise_keys_ofPairs [BEq κ] [LawfulBEq κ] (pairs : List (κ × α)) :
    (keys (ofPairs pairs)).Pairwise fun a b =>
      (pairs.map Prod.fst).idxOf a < (pairs.map Prod.fst).idxOf b := by
  induction pairs using List.reverseRecOn with
  | nil => exact List.Pairwise.nil
  | append_singleton pairs p ih =>
    have hold : (keys (ofPairs pairs)).Pairwise fun a b =>
        ((pairs ++ [p]).map Prod.fst).idxOf a < ((pairs ++ [p]).map Prod.fst).idxOf b := by
      refine ih.imp_of_mem ?_
      intro a b ha hb hab
      rwa [List.map_append, List.idxOf_append_of_mem (mem_keys_ofPairs.mp ha),
        List.idxOf_append_of_mem (mem_keys_ofPairs.mp hb)]
    rw [ofPairs_concat, keys_put]
    split
    · exact hold
    · next hnew =>
      refine List.pairwise_append.mpr ⟨hold, List.pairwise_singleton _ _, ?_⟩
      intro a ha b hb
      obtain rfl := List.mem_singleton.mp hb
      have hm := mem_keys_ofPairs.mp ha
      rw [List.map_append, List.idxOf_append_of_mem hm,
        List.idxOf_append_of_notMem (mt mem_keys_ofPairs.mpr hnew)]
      exact Nat.lt_add_right _ (List.idxOf_lt_length_of_mem hm)

lemma put_map_keys {ι : Type} [DecidableEq ι] {f : κ → ι} (hf : Function.Injective f) (k : κ)
    (a : α) (m : Keyed κ α) :
    put (f k) a (m.map fun p => (f p.1, p.2)) = (put k a m).map fun p => (f p.1, p.2) := by
  induction m with
  | nil => rfl
  | cons p rest ih =>
    by_cases h : p.1 = k
    · simp [put, h]
    · simp [put, h, hf.ne h, ih]

lemma ofPairs_map_keys {ι : Type} [DecidableEq ι] {f : κ → ι} (hf : Function.Injective f)
    (pairs : List (κ × α)) :
    ofPairs (pairs.map fun p => (f p.1, p.2)) = (ofPairs pairs).map fun p => (f p.1, p.2) := by
  induction pairs using List.reverseRecOn with
  | nil => rfl
  | append_singleton pairs p ih =>
    rw [List.map_append, List.map_singleton, ofPairs_concat, ih, put_map_keys hf, ofPairs_concat]

def Gives (pairs : List (κ × α)) (k : κ) (a : α) : Prop :=
  ∃ before after, pairs = before ++ (k, a) :: after ∧ ∀ p ∈ after, p.1 ≠ k

lemma gives_concat_iff {pairs : List (κ × α)} {p : κ × α} {k : κ} {a : α} :
    Gives (pairs ++ [p]) k a ↔ if p.1 = k then p.2 = a else Gives pairs k a := by
  constructor
  · rintro ⟨before, after, he, ha⟩
    rcases List.eq_nil_or_concat after with rfl | ⟨after, q, rfl⟩
    · obtain ⟨-, hp⟩ := List.append_inj' he rfl
      obtain rfl := List.singleton_inj.mp hp
      rw [if_pos rfl]
    · rw [List.concat_eq_append, ← List.cons_append, ← List.append_assoc] at he
      obtain ⟨hpairs, hq⟩ := List.append_inj' he rfl
      obtain rfl := List.singleton_inj.mp hq
      rw [List.concat_eq_append, List.forall_mem_append] at ha
      rw [if_neg (ha.2 p (List.mem_singleton.mpr rfl))]
      exact ⟨before, after, hpairs, ha.1⟩
  · intro h
    split at h
    · next hk => exact ⟨pairs, [], by rw [← hk, ← h], nofun⟩
    · next hk =>
      obtain ⟨before, after, rfl, ha⟩ := h
      refine ⟨before, after ++ [p], by simp, List.forall_mem_append.mpr ⟨ha, ?_⟩⟩
      intro q hq
      rwa [List.mem_singleton.mp hq]

lemma find?_ofPairs_eq_some_iff {pairs : List (κ × α)} {k : κ} {a : α} :
    find? k (ofPairs pairs) = some a ↔ Gives pairs k a := by
  induction pairs using List.reverseRecOn with
  | nil => simp [ofPairs, find?, Gives]
  | append_singleton pairs p ih =>
    rw [ofPairs_concat, gives_concat_iff]
    split
    · next h =>
      subst h
      rw [find?_put_self, Option.some.injEq]
    · next h => rw [find?_put_of_ne (Ne.symm h), ih]

lemma mem_map_fst_iff {pairs : List (κ × α)} {k : κ} :
    k ∈ pairs.map Prod.fst ↔ ∃ a, Gives pairs k a := by
  simp only [← mem_keys_ofPairs, mem_keys_iff, find?_ofPairs_eq_some_iff]

end ComponentCompiler.Keyed
