import ComponentCompiler.Proofs.TemplateScanning
import ComponentCompiler.Proofs.Trimming

/-! Templates written from their segments. Scanning yields just the lists of segments that can be
written and read again. -/

namespace ComponentCompiler

namespace Text

lemma trim_trim (s : Text) : trim (trim s) = trim s :=
  (tight_trimBy isBlank s).trimBy_eq

lemma notMem_trim {c : Char} {s : Text} (h : c ∉ s) : c ∉ trim s :=
  mt mem_of_mem_trimBy h

end Text

namespace Placeholder

open Text (trim_trim notMem_trim)

def toBody : Placeholder → Text
  | ⟨name, some default⟩ => name ++ ':' :: default
  -- Braces with nothing between them are text.
  | ⟨[], none⟩ => [' ']
  | ⟨name, none⟩ => name

structure Canonical (p : Placeholder) : Prop where
  name_trim : Text.trim p.name = p.name
  name_colon : ':' ∉ p.name
  name_brace : '\x7d' ∉ p.name
  default_trim : ∀ default, p.default? = some default → Text.trim default = default
  default_brace : ∀ default, p.default? = some default → '\x7d' ∉ default

lemma canonical_ofBody {body : Text} (h : '\x7d' ∉ body) : (ofBody body).Canonical := by
  rw [ofBody]
  cases hcut : Text.cut? [':'] body with
  | none =>
    have hcolon : ':' ∉ body := Text.cut?_singleton_eq_none_iff.mp hcut
    refine ⟨trim_trim body, notMem_trim hcolon, notMem_trim h, ?_, ?_⟩
    · rintro default ⟨⟩
    · rintro default ⟨⟩
  | some cut =>
    obtain ⟨name, default⟩ := cut
    obtain ⟨rfl, hcolon⟩ := Text.cut?_singleton_eq_some_iff.mp hcut
    obtain ⟨hname, hdefault⟩ : '\x7d' ∉ name ∧ '\x7d' ∉ default := by simpa using h
    refine ⟨trim_trim name, notMem_trim hcolon, notMem_trim hname, ?_, ?_⟩
    · rintro _ ⟨⟩
      exact trim_trim default
    · rintro _ ⟨⟩
      exact notMem_trim hdefault

lemma ofBody_toBody {p : Placeholder} (h : p.Canonical) : ofBody p.toBody = p := by
  obtain ⟨name, default?⟩ := p
  cases default? with
  | some default =>
    have hcut : Text.cut? [':'] (name ++ ':' :: default) = some (name, default) :=
      Text.cut?_singleton_eq_some_iff.mpr ⟨rfl, h.name_colon⟩
    rw [toBody, ofBody, hcut]
    simp only [h.name_trim, h.default_trim default rfl]
  | none =>
    cases name with
    | nil => decide
    | cons c name =>
      rw [toBody, ofBody, Text.cut?_singleton_eq_none_iff.mpr h.name_colon]
      · simp only [h.name_trim]
      · simp

lemma toBody_ne_nil (p : Placeholder) : p.toBody ≠ [] := by
  obtain ⟨name, default?⟩ := p
  cases default? with
  | some default => simp [toBody]
  | none => cases name <;> simp [toBody]

lemma brace_notMem_toBody {p : Placeholder} (h : p.Canonical) : '\x7d' ∉ p.toBody := by
  obtain ⟨name, default?⟩ := p
  cases default? with
  | some default => simpa [toBody] using ⟨h.name_brace, h.default_brace default rfl⟩
  | none =>
    cases name with
    | nil => decide
    | cons c name => exact h.name_brace

end Placeholder

def Segment.print : Segment → Text
  | .literal text => text
  | .hole p => '\x7b' :: p.toBody ++ ['\x7d']

namespace Template

def print (segments : List Segment) : Text :=
  segments.flatMap Segment.print

structure WellFormed (segments : List Segment) : Prop where
  literal : ∀ s, .literal s ∈ segments → s ≠ []
  apart : ∀ before s s' after, segments ≠ before ++ .literal s :: .literal s' :: after
  brace : ∀ before s s' after, segments = before ++ .literal (s ++ '\x7b' :: s') :: after →
    s'.head? = some '\x7d' ∨ after = [] ∧ '\x7d' ∉ s'
  hole : ∀ p, .hole p ∈ segments → p.Canonical

lemma segment_eq_literal_iff {piece : Piece} {s : Text} :
    piece.segment = .literal s ↔ piece = .text s := by
  cases piece <;> simp [Piece.segment]

lemma exists_text_of_map_segment {pieces : List Piece} {before after : List Segment} {s : Text}
    (h : pieces.map Piece.segment = before ++ .literal s :: after) : ∃ before' after',
      pieces = before' ++ .text s :: after' ∧ after'.map Piece.segment = after := by
  obtain ⟨before', rest, rfl, -, hrest⟩ := List.map_eq_append_iff.mp h
  obtain ⟨piece, after', rfl, hp, ha⟩ := List.map_eq_cons_iff.mp hrest
  rw [segment_eq_literal_iff.mp hp]
  exact ⟨before', after', rfl, ha⟩

lemma Decomposes.wellFormed {template : Text} {pieces : List Piece}
    (h : Decomposes template pieces) : WellFormed (pieces.map Piece.segment) where
  literal s hs := by
    obtain ⟨piece, hp, he⟩ := List.mem_map.mp hs
    rw [segment_eq_literal_iff.mp he] at hp
    exact h.text s hp
  apart before s s' after he := by
    obtain ⟨before', rest, rfl, hrest⟩ := exists_text_of_map_segment he
    obtain ⟨piece, after', rfl, hp, -⟩ := List.map_eq_cons_iff.mp hrest
    rw [segment_eq_literal_iff.mp hp] at h
    exact h.apart before' s s' after' rfl
  brace before s s' after he := by
    obtain ⟨before', rest, rfl, rfl⟩ := exists_text_of_map_segment he
    have hi := h.brace before' s s' rest rfl
    cases rest with
    | nil =>
      rw [List.flatMap_nil, List.append_nil] at hi
      exact hi.imp_right fun hn => ⟨rfl, hn⟩
    | cons piece rest =>
      cases piece with
      | text t => exact (h.apart before' _ t rest rfl).elim
      | hole body =>
        -- The braces of the next placeholder follow, so the brace is closed at once.
        rcases hi with hi | hi
        · cases s' with
          | nil => simp [Piece.raw] at hi
          | cons c s' => exact Or.inl hi
        · simp [Piece.raw] at hi
  hole p hp := by
    obtain ⟨piece, hm, he⟩ := List.mem_map.mp hp
    cases piece with
    | text s => cases he
    | hole body =>
      obtain rfl := Segment.hole.inj he
      exact Placeholder.canonical_ofBody (h.hole body hm).2

theorem wellFormed_scan (template : Text) : WellFormed (scan template) := by
  obtain ⟨pieces, hs, hu⟩ := exists_pieces template
  rw [hs]
  exact ((hu pieces).mpr rfl).wellFormed

def pieceOf : Segment → Piece
  | .literal text => .text text
  | .hole p => .hole p.toBody

lemma WellFormed.map_segment {segments : List Segment} (h : WellFormed segments) :
    (segments.map pieceOf).map Piece.segment = segments := by
  rw [List.map_map]
  calc segments.map (Piece.segment ∘ pieceOf) = segments.map id := by
        apply List.map_congr_left
        intro segment hs
        cases segment with
        | literal s => rfl
        | hole p => exact congrArg Segment.hole (Placeholder.ofBody_toBody (h.hole p hs))
    _ = segments := List.map_id segments

lemma flatMap_raw_pieceOf (segments : List Segment) :
    (segments.map pieceOf).flatMap Piece.raw = print segments := by
  rw [List.flatMap_map, print]
  congr 1
  funext segment
  cases segment <;> rfl

lemma WellFormed.decomposes {segments : List Segment} (h : WellFormed segments) :
    Decomposes (print segments) (segments.map pieceOf) where
  raw := flatMap_raw_pieceOf segments
  text s hs := by
    apply h.literal s
    rw [← h.map_segment]
    exact List.mem_map_of_mem hs
  hole body hb := by
    obtain ⟨segment, hs, he⟩ := List.mem_map.mp hb
    cases segment with
    | literal s => cases he
    | hole p =>
      obtain rfl := Piece.hole.inj he
      exact ⟨p.toBody_ne_nil, Placeholder.brace_notMem_toBody (h.hole p hs)⟩
  apart before s s' after he := by
    apply h.apart (before.map Piece.segment) s s' (after.map Piece.segment)
    rw [← h.map_segment, he]
    simp [Piece.segment]
  brace before s s' after he := by
    have hs : segments = before.map Piece.segment ++
        .literal (s ++ '\x7b' :: s') :: after.map Piece.segment := by
      rw [← h.map_segment, he]
      simp [Piece.segment]
    rcases h.brace _ s s' _ hs with hhead | ⟨hafter, hn⟩
    · refine Or.inl ?_
      rw [List.head?_append, hhead]
      rfl
    · rw [List.map_eq_nil_iff.mp hafter, List.flatMap_nil, List.append_nil]
      exact Or.inr hn

theorem scan_print {segments : List Segment} (h : WellFormed segments) :
    scan (print segments) = segments := by
  obtain ⟨pieces, hs, hu⟩ := exists_pieces (print segments)
  rw [hs, ← (hu _).mp h.decomposes, h.map_segment]

/-- Scanning yields well-formed segments only, it reads them as they were written, and so it yields
each well-formed list of segments. -/
theorem scan_inverts_print :
    (∀ template, WellFormed (scan template)) ∧
      (∀ segments, WellFormed segments → scan (print segments) = segments) ∧
      (∀ template, scan (print (scan template)) = scan template) ∧
      ∀ segments, (∃ template, scan template = segments) ↔ WellFormed segments := by
  refine ⟨wellFormed_scan, fun segments => scan_print,
    fun template => scan_print (wellFormed_scan template), fun segments => ⟨?_, ?_⟩⟩
  · rintro ⟨template, rfl⟩
    exact wellFormed_scan template
  · intro h
    exact ⟨print segments, scan_print h⟩

example : scan "\x7b\x7d\x7b\t\x7d\x7ba\x7b : b:c \x7d\x7b".toList =
    [.literal "\x7b\x7d".toList, .hole ⟨[], none⟩, .hole ⟨"a\x7b".toList, some "b:c".toList⟩,
      .literal "\x7b".toList] := by decide +kernel

end Template

end ComponentCompiler
