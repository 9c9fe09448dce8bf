import ComponentCompiler.Proofs.Bytes
import ComponentCompiler.Proofs.DiskWriting

/-! The text of a file: what is written there is read again, with its line endings unified. -/

namespace ComponentCompiler

namespace Text

lemma Utf8.decodeFrom_skip (skip pos : Nat) (bytes : List UInt8) :
    decodeFrom skip pos bytes = decodeFrom 0 (pos + skip) (bytes.drop skip) := by
  induction bytes generalizing skip pos with
  | nil => rw [List.drop_nil, decodeFrom, decodeFrom]
  | cons b bytes ih =>
    cases skip with
    | zero => rfl
    | succ skip => rw [decodeFrom, ih, List.drop_succ_cons, Nat.add_right_comm, Nat.add_assoc]

lemma Utf8.decodeFrom_encode (pos : Nat) (s : Text) : decodeFrom 0 pos (encode s) = .ok s := by
  induction s generalizing pos with
  | nil => rfl
  | cons c s ih =>
    obtain ⟨b, bytes, hb, hfirst⟩ := first_utf8EncodeChar c (encode s)
    have hrest : bytes.drop (c.utf8Size - 1) = encode s := by
      have happend := eq_append_of_first hfirst
      rw [← hb] at happend
      exact (List.append_cancel_left happend).symm
    have hcons : encode (c :: s) = b :: bytes := hb
    rw [hcons, decodeFrom, hfirst]
    dsimp only
    rw [decodeFrom_skip, hrest, ih]
    rfl

theorem Utf8.decode_encode (s : Text) : decode (encode s) = .ok s :=
  decodeFrom_encode 0 s

lemma unifyNewlines_cons {c : Char} (hc : c ≠ '\r') (s : Text) :
    unifyNewlines (c :: s) = c :: unifyNewlines s := by
  rw [unifyNewlines.eq_def]
  split <;> simp_all

lemma unifyNewlines_append {s : Text} (hs : '\r' ∉ s) (t : Text) :
    unifyNewlines (s ++ t) = s ++ unifyNewlines t := by
  induction s with
  | nil => rfl
  | cons c s ih =>
    rw [List.mem_cons, not_or] at hs
    rw [List.cons_append, unifyNewlines_cons (Ne.symm hs.1), ih hs.2]
    rfl

lemma unifyNewlines_return (s : Text) :
    unifyNewlines ('\r' :: s) = unifyNewlines s ∨
      unifyNewlines ('\r' :: s) = '\n' :: unifyNewlines s := by
  by_cases hs : ∃ t, s = '\n' :: t
  · obtain ⟨t, rfl⟩ := hs
    exact Or.inl (unifyNewlines_cons (by decide) t).symm
  · exact Or.inr (unifyNewlines.eq_3 s fun t ht => hs ⟨t, ht⟩)

lemma return_notMem_unifyNewlines (s : Text) : '\r' ∉ s.unifyNewlines := by
  fun_induction unifyNewlines s with
  | case1 => exact List.not_mem_nil
  | case2 s ih => exact List.not_mem_cons_of_ne_of_not_mem (by decide) ih
  | case3 s _ ih => exact List.not_mem_cons_of_ne_of_not_mem (by decide) ih
  | case4 c s _ hc ih => exact List.not_mem_cons_of_ne_of_not_mem (Ne.symm hc) ih

lemma unifyNewlines_eq_self_iff {s : Text} : s.unifyNewlines = s ↔ '\r' ∉ s := by
  constructor
  · intro h
    rw [← h]
    exact return_notMem_unifyNewlines s
  · intro h
    have happend := unifyNewlines_append h []
    rwa [unifyNewlines, List.append_nil] at happend

end Text

lemma Disk.read_of_write {disk later : Disk} {path : Utf16} {bytes : List UInt8}
    (h : disk.write path bytes = .ok later) : later.read path = .ok bytes := by
  obtain ⟨location, hlead, hd, rfl⟩ := write_eq_ok h
  exact hlead.read (extends_put hd _) (entry?_put_self disk hlead.ne_nil _)

lemma Disk.readText_of_read {disk : Disk} {path : Utf16} {text : Text}
    (h : disk.read path = .ok (Text.Utf8.encode text)) :
    disk.readText path = .ok (.ok text.unifyNewlines) := by
  rw [readText, h, Except.map, Text.Utf8.decode_encode]
  rfl

end ComponentCompiler
