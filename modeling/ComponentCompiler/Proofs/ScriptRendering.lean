import ComponentCompiler.Proofs.KeyedPairs
import ComponentCompiler.Proofs.TemplateScanning
import ComponentCompiler.Proofs.Trimming
import ComponentCompiler.Proofs.Units
import ComponentCompiler.Template.Render
import Mathlib.Algebra.Order.BigOperators.Group.List
import Mathlib.Algebra.Order.Ring.Nat

/-! The substitution that a generated module makes in a template when it runs. It works on units and
has its own notion of blanks; on all else it agrees with the renderer. -/

namespace ComponentCompiler

namespace Script

def isSpaceCode (n : Nat) : Bool :=
  (0x09 ≤ n && n ≤ 0x0d) || n == 0x20 || n == 0xa0 || n == 0x1680 || (0x2000 ≤ n && n ≤ 0x200a) ||
    n == 0x2028 || n == 0x2029 || n == 0x202f || n == 0x205f || n == 0x3000 || n == 0xfeff

def isSpace (c : Char) : Bool :=
  isSpaceCode c.toNat

def trim (s : Utf16) : Utf16 :=
  Text.trimBy (fun u => isSpaceCode u.toNat) s

/-- The body of the match that begins here, if one does. The body takes every unit up to the closing
brace; none of these closes, so a shorter body would not match. -/
def body? : Utf16 → Option Utf16
  | [] => none
  | u :: s =>
    let body := s.takeWhile (· ≠ Utf16.unit '\x7d')
    let closed := (s.drop body.length).head? = some (Utf16.unit '\x7d')
    if u = Utf16.unit '\x7b' ∧ body ≠ [] ∧ closed then some body else none

def replaceFrom (new : Utf16 → Utf16) : (skip : Nat) → Utf16 → Utf16
  | _, [] => []
  | skip + 1, _ :: s => replaceFrom new skip s
  | 0, u :: s =>
    match body? (u :: s) with
    | some body => new body ++ replaceFrom new (body.length + 1) s
    | none => u :: replaceFrom new 0 s

def value (props : Keyed Utf16 Utf16) (body : Utf16) : Utf16 :=
  let colon? := body.idxOf? (Utf16.unit ':')
  let name := trim (match colon? with
    | some i => body.take i
    | none => body)
  let fallback := match colon? with
    | some i => trim (body.drop (i + 1))
    | none => []
  match props.find? name with
  | some value => if value = [] then fallback else value
  | none => fallback

def render (template : Utf16) (props : Keyed Utf16 Utf16) : Utf16 :=
  replaceFrom (value props) 0 template

end Script

namespace Template

open Text (trimBy ends Tight)

def parts (body : Text) : Text × Text :=
  (Text.cut? [':'] body).getD (body, [])

def fill (blank : Char → Bool) (props : Keyed Text Text) (body : Text) : Text :=
  match props.find? (trimBy blank (parts body).1) with
  | some value => if value = [] then trimBy blank (parts body).2 else value
  | none => trimBy blank (parts body).2

def Piece.fill (blank : Char → Bool) (props : Keyed Text Text) : Piece → Text
  | .text s => s
  | .hole body => Template.fill blank props body

lemma flatMap_fill_push (blank : Char → Bool) (props : Keyed Text Text) (c : Char)
    (pieces : List Piece) :
    (Piece.push c pieces).flatMap (Piece.fill blank props) =
      c :: pieces.flatMap (Piece.fill blank props) := by
  cases pieces with
  | nil => rfl
  | cons piece pieces => cases piece <;> rfl

def textProps (props : Keyed Text Text) : Props :=
  props.map fun entry => (entry.1, .text entry.2)

lemma resolve_ofBody (props : Keyed Text Text) (body : Text) :
    (Placeholder.ofBody body).resolve (textProps props) = fill Text.isBlank props body := by
  have hfind : ∀ name, (textProps props).find? name = (props.find? name).map .text :=
    fun name => Keyed.find?_map Function.injective_id Value.text name props
  have hname : (Placeholder.ofBody body).name = trimBy Text.isBlank (parts body).1 := by
    rw [Placeholder.ofBody, parts]
    cases Text.cut? [':'] body <;> rfl
  have hdefault :
      (Placeholder.ofBody body).default?.getD [] = trimBy Text.isBlank (parts body).2 := by
    rw [Placeholder.ofBody, parts]
    cases Text.cut? [':'] body <;> rfl
  rw [Placeholder.resolve, fill, hfind, hname, hdefault]
  cases props.find? (trimBy Text.isBlank (parts body).1) <;> rfl

lemma render_eq {template : Text} {pieces : List Piece} (h : Decomposes template pieces)
    (props : Keyed Text Text) :
    render template (textProps props) = pieces.flatMap (Piece.fill Text.isBlank props) := by
  obtain ⟨found, hs, hu⟩ := exists_pieces template
  obtain rfl := (hu pieces).mp h
  rw [render, hs, List.flatMap_map]
  congr 1
  funext piece
  cases piece with
  | text s => rfl
  | hole body => exact resolve_ofBody props body

end Template

namespace Script

open Template (Inert Piece Decomposes)

lemma isSpaceCode_bound {n : Nat} (h : isSpaceCode n = true) : n < 0xd800 ∨ n = 0xfeff := by
  simp only [isSpaceCode, Bool.or_eq_true, Bool.and_eq_true, decide_eq_true_eq, beq_iff_eq] at h
  omega

lemma isSpaceCode_of_mem {c : Char} {u : UInt16} (hu : u ∈ Utf16.ofChar c) :
    isSpaceCode u.toNat = isSpace c := by
  rcases Utf16.ofChar_cases c with ⟨v, hv, hn⟩ | ⟨hc, v, w, hvw, hv, hw⟩
  · rw [hv, List.mem_singleton] at hu
    rw [hu, hn, isSpace]
  · have hlarge : isSpace c = false := by
      rw [Bool.eq_false_iff]
      intro h
      have := isSpaceCode_bound h
      omega
    have hhalf : isSpaceCode u.toNat = false := by
      rw [Bool.eq_false_iff]
      intro h
      have := isSpaceCode_bound h
      rw [hvw, List.mem_cons, List.mem_singleton] at hu
      rcases hu with rfl | rfl <;> omega
    rw [hhalf, hlarge]

lemma trim_ofText (s : Text) : trim (.ofText s) = .ofText (Text.trimBy isSpace s) :=
  Text.trimBy_flatMap Utf16.ofChar_ne_nil (fun _ _ hu => isSpaceCode_of_mem hu) s

lemma takeWhile_ofText {body : Text} (hb : '\x7d' ∉ body) (rest : Utf16) :
    (Utf16.ofText body ++ rest).takeWhile (· ≠ Utf16.unit '\x7d') =
      Utf16.ofText body ++ rest.takeWhile (· ≠ Utf16.unit '\x7d') := by
  refine List.takeWhile_append_of_pos fun u hu => ?_
  rw [decide_eq_true_eq]
  rintro rfl
  exact hb ((Utf16.unit_mem_ofText_iff (by decide)).mp hu)

lemma body?_of_ne {u : UInt16} (hu : u ≠ Utf16.unit '\x7b') (s : Utf16) :
    body? (u :: s) = none := by
  simp [body?, hu]

lemma body?_of_inert {s : Text} (h : Inert s) :
    body? (Utf16.unit '\x7b' :: Utf16.ofText s) = none := by
  rw [body?]
  rcases h with h | h
  · obtain ⟨rest, rfl⟩ := List.head?_eq_some_iff.mp h
    rw [if_neg]
    rintro ⟨-, hne, -⟩
    exact hne rfl
  · have htake := takeWhile_ofText h []
    rw [List.append_nil, List.takeWhile_nil, List.append_nil] at htake
    rw [htake, if_neg (by simp)]

lemma body?_hole {body : Text} (hne : body ≠ []) (hb : '\x7d' ∉ body) (rest : Utf16) :
    body? (Utf16.unit '\x7b' :: (Utf16.ofText body ++ Utf16.unit '\x7d' :: rest)) =
      some (Utf16.ofText body) := by
  have htake := takeWhile_ofText hb (Utf16.unit '\x7d' :: rest)
  rw [List.takeWhile_cons_of_neg (by simp), List.append_nil] at htake
  rw [body?, htake, if_pos ⟨rfl, mt Utf16.ofText_eq_nil_iff.mp hne, by simp⟩]

lemma replaceFrom_skip (new : Utf16 → Utf16) (skipped s : Utf16) :
    replaceFrom new skipped.length (skipped ++ s) = replaceFrom new 0 s := by
  induction skipped with
  | nil => rfl
  | cons u skipped ih => simpa [replaceFrom] using ih

lemma replaceFrom_of_none {new : Utf16 → Utf16} {u : UInt16} {s : Utf16}
    (h : body? (u :: s) = none) : replaceFrom new 0 (u :: s) = u :: replaceFrom new 0 s := by
  rw [replaceFrom, h]

lemma replaceFrom_char {new : Utf16 → Utf16} {c : Char} {s : Text} (h : c = '\x7b' → Inert s) :
    replaceFrom new 0 (Utf16.ofText (c :: s)) =
      Utf16.ofChar c ++ replaceFrom new 0 (Utf16.ofText s) := by
  have hopen : (Utf16.unit '\x7b').toNat = 0x7b := rfl
  rw [Utf16.ofText, List.flatMap_cons, ← Utf16.ofText]
  rcases Utf16.ofChar_cases c with ⟨u, hu, hn⟩ | ⟨-, u, v, huv, hu, hv⟩
  · rw [hu, List.singleton_append, List.singleton_append]
    apply replaceFrom_of_none
    by_cases hc : u = Utf16.unit '\x7b'
    · subst hc
      exact body?_of_inert (h (Char.toNat_inj.mp hn.symm))
    · exact body?_of_ne hc _
  · -- Neither half of a pair is a brace.
    have hu' : u ≠ Utf16.unit '\x7b' := by
      rintro rfl
      omega
    have hv' : v ≠ Utf16.unit '\x7b' := by
      rintro rfl
      omega
    rw [huv, List.cons_append, List.cons_append, List.nil_append,
      replaceFrom_of_none (body?_of_ne hu' _), replaceFrom_of_none (body?_of_ne hv' _)]
    rfl

lemma replaceFrom_hole {new : Utf16 → Utf16} {body : Text} (hne : body ≠ []) (hb : '\x7d' ∉ body)
    (rest : Text) :
    replaceFrom new 0 (Utf16.ofText ('\x7b' :: body ++ '\x7d' :: rest)) =
      new (Utf16.ofText body) ++ replaceFrom new 0 (Utf16.ofText rest) := by
  have hunits : Utf16.ofText ('\x7b' :: body ++ '\x7d' :: rest) = Utf16.unit '\x7b' ::
      (Utf16.ofText body ++ Utf16.unit '\x7d' :: Utf16.ofText rest) := by
    rw [List.cons_append, Utf16.ofText_cons_unit (by decide), Utf16.ofText_append,
      Utf16.ofText_cons_unit (by decide)]
  have hskip := replaceFrom_skip new (Utf16.ofText body ++ [Utf16.unit '\x7d']) (Utf16.ofText rest)
  rw [List.length_append, List.length_singleton, List.append_assoc, List.singleton_append] at hskip
  rw [hunits, replaceFrom, body?_hole hne hb]
  dsimp only
  rw [hskip]

def object (props : Keyed Text Text) : Keyed Utf16 Utf16 :=
  props.map fun entry => (.ofText entry.1, .ofText entry.2)

lemma idxOf?_colon (body : Text) : (Utf16.ofText body).idxOf? (Utf16.unit ':') =
    (Text.cut? [':'] body).map fun cut => (Utf16.ofText cut.1).length := by
  cases hcut : Text.cut? [':'] body with
  | none =>
    have hn : ':' ∉ body := Text.cut?_singleton_eq_none_iff.mp hcut
    exact List.idxOf?_eq_none_iff.mpr fun h => hn ((Utf16.unit_mem_ofText_iff (by decide)).mp h)
  | some cut =>
    obtain ⟨rfl, hn⟩ := Text.cut?_singleton_eq_some_iff.mp hcut
    have hnone : (Utf16.ofText cut.1).findIdx? (· == Utf16.unit ':') = none :=
      List.idxOf?_eq_none_iff.mpr fun h => hn ((Utf16.unit_mem_ofText_iff (by decide)).mp h)
    rw [Utf16.ofText_append, Utf16.ofText_cons_unit (by decide), List.idxOf?, List.findIdx?_append,
      hnone, List.findIdx?_cons]
    simp

lemma value_ofText (props : Keyed Text Text) (body : Text) :
    value (object props) (.ofText body) = .ofText (Template.fill isSpace props body) := by
  have hfind : ∀ name, (object props).find? (Utf16.ofText name) =
      (props.find? name).map Utf16.ofText :=
    fun name => Keyed.find?_map (fun _ _ => Utf16.ofText_injective) Utf16.ofText name props
  have hparts : value (object props) (.ofText body) =
      match (object props).find? (trim (Utf16.ofText (Template.parts body).1)) with
      | some value => if value = [] then trim (Utf16.ofText (Template.parts body).2) else value
      | none => trim (Utf16.ofText (Template.parts body).2) := by
    rw [value, idxOf?_colon, Template.parts]
    cases hcut : Text.cut? [':'] body with
    | none => rfl
    | some cut =>
      obtain ⟨rfl, -⟩ := Text.cut?_singleton_eq_some_iff.mp hcut
      rw [Utf16.ofText_append, Utf16.ofText_cons_unit (by decide)]
      simp
  rw [hparts, trim_ofText, trim_ofText, hfind, Template.fill]
  cases props.find? (Text.trimBy isSpace (Template.parts body).1) with
  | none => rfl
  | some value =>
    simp only [Option.map_some, Utf16.ofText_eq_nil_iff]
    split <;> rfl

lemma render_eq {template : Text} {pieces : List Piece} (h : Decomposes template pieces)
    (props : Keyed Text Text) :
    render (.ofText template) (object props) =
      .ofText (pieces.flatMap (Piece.fill isSpace props)) := by
  rw [render]
  induction template using Template.scan_induction generalizing pieces with
  | nil =>
    obtain rfl := Template.decomposes_nil_iff.mp h
    rfl
  | hole body rest hne hb ih =>
    obtain ⟨more, rfl, hmore⟩ := (Template.decomposes_hole_iff hne hb).mp h
    rw [replaceFrom_hole hne hb, value_ofText, ih hmore, List.flatMap_cons, Utf16.ofText_append]
    rfl
  | char c s hc ih =>
    obtain ⟨more, rfl, hmore⟩ := (Template.decomposes_char_iff hc).mp h
    rw [replaceFrom_char hc, ih hmore, Template.flatMap_fill_push]
    rfl

end Script

namespace Template

open Script (isSpace)
open Text (trimBy ends Tight isBlank)

section

variable {p q : Char → Bool} {pieces : List Piece} {body : Text} {c : Char}

lemma blank_of_name (h : ∀ props, pieces.flatMap (Piece.fill p props) =
      pieces.flatMap (Piece.fill q props))
    (hb : .hole body ∈ pieces) (hc : c ∈ ends p (parts body).1) : q c = true := by
  refine Text.mem_of_mem_ends_of_tight ?_ hc
  by_contra ht
  -- Trimming by `p` never yields the name, so a long value for it shows up on one side only.
  let name := trimBy q (parts body).1
  let value := 'x' :: pieces.flatMap (Piece.fill p [])
  have hp : pieces.flatMap (Piece.fill p [(name, value)]) = pieces.flatMap (Piece.fill p []) := by
    congr 1
    funext piece
    cases piece with
    | text s => rfl
    | hole other =>
      have hne : name ≠ trimBy p (parts other).1 := by
        intro he
        apply ht
        change Tight p name
        rw [he]
        exact Text.tight_trimBy p _
      simp [Piece.fill, fill, Keyed.find?, hne]
  have hq : fill q [(name, value)] body = value := by
    simp [fill, Keyed.find?, name, value]
  have hlen : value.length ≤ (pieces.flatMap (Piece.fill q [(name, value)])).length := by
    obtain ⟨before, after, he⟩ := List.append_of_mem hb
    rw [he, List.flatMap_append, List.flatMap_cons, Piece.fill, hq, List.length_append,
      List.length_append]
    omega
  rw [← h, hp] at hlen
  exact Nat.not_succ_le_self _ hlen

lemma blank_of_default (h : pieces.flatMap (Piece.fill p []) = pieces.flatMap (Piece.fill q []))
    (hb : .hole body ∈ pieces) (hc : c ∈ ends p (parts body).2) : q c = true := by
  by_contra hq
  -- Trimming by `q` keeps every character that is no blank of `q`; trimming by `p` loses one.
  let r : Char → Bool := fun d => !q d
  have hkeep : ∀ s : Text, (trimBy q s).countP r = s.countP r :=
    Text.countP_trimBy_eq (by simp [r])
  have hlt : (pieces.map (List.countP r ∘ Piece.fill p [])).sum <
      (pieces.map (List.countP r ∘ Piece.fill q [])).sum := by
    apply List.sum_lt_sum
    · intro piece _
      cases piece with
      | text s => exact le_rfl
      | hole other =>
        change (trimBy p (parts other).2).countP r ≤ (trimBy q (parts other).2).countP r
        rw [hkeep]
        exact Text.countP_trimBy_le p r _
    · refine ⟨.hole body, hb, ?_⟩
      change (trimBy p (parts body).2).countP r < (trimBy q (parts body).2).countP r
      rw [hkeep]
      exact Text.countP_trimBy_lt hc (by simp [r, hq])
  rw [← List.countP_flatMap, ← List.countP_flatMap, h] at hlt
  exact lt_irrefl _ hlt

end

/-- Around the text stands none of the separators that only the renderer takes for blanks, and no
byte order mark, which only the script takes for one. -/
structure EvenlyBlank (s : Text) : Prop where
  separator : ∀ c ∈ ends isBlank s, c.toNat ∉ [0x1c, 0x1d, 0x1e, 0x1f, 0x85]
  byteOrderMark : ∀ c ∈ ends isSpace s, c.toNat ≠ 0xfeff

lemma isSpace_iff_of_isBlank {c : Char} (h : isBlank c = true) :
    isSpace c = true ↔ c.toNat ∉ [0x1c, 0x1d, 0x1e, 0x1f, 0x85] := by
  simp only [isBlank, Bool.or_eq_true, Bool.and_eq_true, decide_eq_true_eq, beq_iff_eq] at h
  simp only [isSpace, Script.isSpaceCode, Bool.or_eq_true, Bool.and_eq_true, decide_eq_true_eq,
    beq_iff_eq, List.mem_cons, List.not_mem_nil, or_false]
  omega

lemma isBlank_iff_of_isSpace {c : Char} (h : isSpace c = true) :
    isBlank c = true ↔ c.toNat ≠ 0xfeff := by
  simp only [isSpace, Script.isSpaceCode, Bool.or_eq_true, Bool.and_eq_true, decide_eq_true_eq,
    beq_iff_eq] at h
  simp only [isBlank, Bool.or_eq_true, Bool.and_eq_true, decide_eq_true_eq, beq_iff_eq]
  omega

lemma evenlyBlank_iff {s : Text} : EvenlyBlank s ↔
    (∀ c ∈ ends isBlank s, isSpace c = true) ∧ ∀ c ∈ ends isSpace s, isBlank c = true := by
  constructor
  · rintro ⟨hs, hm⟩
    exact ⟨fun c hc => (isSpace_iff_of_isBlank (Text.of_mem_ends hc)).mpr (hs c hc),
      fun c hc => (isBlank_iff_of_isSpace (Text.of_mem_ends hc)).mpr (hm c hc)⟩
  · rintro ⟨hs, hm⟩
    exact ⟨fun c hc => (isSpace_iff_of_isBlank (Text.of_mem_ends hc)).mp (hs c hc),
      fun c hc => (isBlank_iff_of_isSpace (Text.of_mem_ends hc)).mp (hm c hc)⟩

/-- The script fills a template as the renderer does, whatever the properties, just if both take the
same characters around every name and every default for blanks. -/
theorem script_render_eq_iff (template : Text) :
    (∀ props : Keyed Text Text, Script.render (.ofText template) (Script.object props) =
      .ofText (render template (textProps props))) ↔
    ∀ pieces, Decomposes template pieces → ∀ body, .hole body ∈ pieces →
      EvenlyBlank (parts body).1 ∧ EvenlyBlank (parts body).2 := by
  constructor
  · intro h pieces hd body hb
    have hfill : ∀ props, pieces.flatMap (Piece.fill isBlank props) =
        pieces.flatMap (Piece.fill isSpace props) := by
      intro props
      have hprops := h props
      rw [Script.render_eq hd, render_eq hd] at hprops
      exact (Utf16.ofText_injective hprops).symm
    have hfill' := fun props => (hfill props).symm
    rw [evenlyBlank_iff, evenlyBlank_iff]
    exact ⟨⟨fun c => blank_of_name hfill hb, fun c => blank_of_name hfill' hb⟩,
      fun c => blank_of_default (hfill []) hb, fun c => blank_of_default (hfill' []) hb⟩
  · intro h props
    obtain ⟨pieces, -, hu⟩ := exists_pieces template
    have hd := (hu pieces).mpr rfl
    rw [Script.render_eq hd, render_eq hd]
    congr 1
    refine List.flatMap_congr fun piece hp => ?_
    cases piece with
    | text s => rfl
    | hole body =>
      obtain ⟨hname, hdefault⟩ := h pieces hd body hp
      rw [evenlyBlank_iff] at hname hdefault
      rw [Piece.fill, Piece.fill, fill, fill, Text.trimBy_eq_of_forall hname.1 hname.2,
        Text.trimBy_eq_of_forall hdefault.1 hdefault.2]

theorem script_render_ne_greeting :
    Script.render (.ofString "\x7bgreeting:\ufeffHello\x7d") (Script.object []) =
        .ofString "Hello" ∧
      render "\x7bgreeting:\ufeffHello\x7d".toList (textProps []) = "\ufeffHello".toList := by
  constructor
  · decide +kernel
  · decide +kernel

end Template

end ComponentCompiler
