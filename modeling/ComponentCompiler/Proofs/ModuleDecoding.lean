import ComponentCompiler.Artifact.Module
import ComponentCompiler.Proofs.Catalogs
import ComponentCompiler.Proofs.Literals
import ComponentCompiler.Proofs.Reading
import ComponentCompiler.Proofs.Searching

/-! The module tells what it was made of: a reader that knows the fixed scripts finds the attribute,
the styles, the order and the entries in its text, whatever the texts of the components are. -/

namespace ComponentCompiler.Module

open Reading (many)
open Text.Literal (encode read? read?_encode)

structure Contents where
  attributeName : Utf16
  styles : Text
  order : List Utf16
  entries : List (Utf16 × Text)
  deriving DecidableEq, Repr

def attributeMark (frame : Frame) : Text :=
  header ++ finish frame.opening ++ '\n' :: "  var COMPONENT_ATTRIBUTE = ".toList

def stylesMark : Text := ";\n".toList ++ "  var COMPONENT_STYLES = ".toList

def orderMark : Text := ";\n".toList ++ "  var COMPONENT_ORDER = [".toList

def orderEnd : Text := "];\n".toList ++ "  var ComponentRegistry = \x7b\x7d;\n".toList

def nameMark : Text := '\n' :: "  ComponentRegistry[".toList

def templateMark : Text :=
  "] = function render(container, props) \x7b\n".toList ++
    "    assertContainer(container);\n".toList ++
    "    container.innerHTML = renderTemplate(".toList

def entryEnd : Text := ", props || \x7b\x7d);\n".toList ++ "  \x7d;\n".toList

def ending (frame : Frame) : Text :=
  '\n' :: finish frame.closing ++ footer

def literal? (mark s : Text) : Option (Utf16 × Text) :=
  (s.dropPrefix? mark).bind read?

def pair? (s : Text) : Option ((Utf16 × Text) × Text) := do
  let (name, s) ← literal? nameMark s
  let (template, s) ← literal? templateMark s
  let s ← s.dropPrefix? entryEnd
  return ((name, ← template.text?), s)

def names (s : Text) : List Utf16 × Text :=
  match read? s with
  | none => ([], s)
  | some (name, s) =>
    let (more, s) := many (literal? ", ".toList) s
    (name :: more, s)

def decode? (frame : Frame) (s : Text) : Option Contents := do
  let (attributeName, s) ← literal? (attributeMark frame) s
  let (styles, s) ← literal? stylesMark s
  let s ← s.dropPrefix? orderMark
  let (order, s) := names s
  let s ← s.dropPrefix? orderEnd
  let (entries, s) := many pair? s
  if s = ending frame then return ⟨attributeName, ← styles.text?, order, entries⟩ else none

def writtenEntry (e : Utf16 × Text) : Text :=
  nameMark ++ (encode e.1 ++ (templateMark ++ (encode (.ofText e.2) ++ entryEnd)))

lemma literal?_append (mark : Text) (units : Utf16) (s : Text) :
    literal? mark (mark ++ (encode units ++ s)) = some (units, s) := by
  simp [literal?]

lemma pair?_append (e : Utf16 × Text) (s : Text) : pair? (writtenEntry e ++ s) = some (e, s) := by
  simp [pair?, writtenEntry, literal?_append]

lemma names_join (units : List Utf16) (s : Text) (h : read? s = none)
    (hs : literal? ", ".toList s = none) :
    names (Text.join ", ".toList (units.map encode) ++ s) = (units, s) := by
  cases units with
  | nil => simp [names, Text.join, h]
  | cons name units =>
    have hm := Reading.many_flatMap (fun u => ", ".toList ++ encode u)
      (fun u rest => by rw [List.append_assoc, literal?_append]) (by simp) hs units
    rw [List.map_cons, Text.join, Text.intercalate_cons, List.flatMap_map, List.append_assoc, names,
      read?_encode]
    simp only [hm]

lemma finish_of_ends {c : Char} (h : c ≠ '\n') (s : Text) :
    finish (s ++ [c, '\n']) = s ++ [c, '\n'] := by
  have hs : s ++ [c, '\n'] = s ++ [c] ++ ['\n'] := by simp
  rw [finish, hs, Text.dropEndWhile_newline, Text.dropEndWhile_concat (by simp [h])]

lemma finish_ofLines {lines : List String} {c : Char}
    (h : (lines.getLast?.bind fun line => line.toList.getLast?) = some c) (hc : c ≠ '\n') :
    finish (Fragment.ofLines lines) = Fragment.ofLines lines := by
  obtain ⟨line, hl, hline⟩ := Option.bind_eq_some_iff.mp h
  obtain ⟨lines, rfl⟩ := List.getLast?_eq_some_iff.mp hl
  obtain ⟨s, hs⟩ := List.getLast?_eq_some_iff.mp hline
  have he : Fragment.ofLines (lines ++ [line]) = Fragment.ofLines lines ++ s ++ [c, '\n'] := by
    simp [Fragment.ofLines, hs]
  rw [he, finish_of_ends hc]

lemma finish_entry (component : Component) : finish (entry component) = entry component := by
  have h : "  \x7d;\n".toList = "  \x7d".toList ++ [';', '\n'] := rfl
  delta entry
  rw [h, ← List.append_assoc, finish_of_ends (by decide)]

lemma finish_declarations (catalog : Catalog) (settings : Settings) :
    finish (declarations catalog settings) = declarations catalog settings := by
  have h : "  var ComponentRegistry = \x7b\x7d;\n".toList =
      "  var ComponentRegistry = \x7b\x7d".toList ++ [';', '\n'] := rfl
  delta declarations
  rw [h, ← List.append_assoc, finish_of_ends (by decide)]

lemma newline_entry (component : Component) :
    '\n' :: entry component = writtenEntry (component.name, component.template) := by
  delta entry writtenEntry nameMark templateMark entryEnd
  simp only [List.append_assoc, List.cons_append]

lemma text_eq (frame : Frame) (catalog : Catalog) (settings : Settings) :
    text frame catalog settings =
      attributeMark frame ++ (encode settings.componentAttribute ++
        (stylesMark ++ (encode (.ofText catalog.styles) ++
          (orderMark ++ (Text.join ", ".toList (catalog.names.map encode) ++
            (orderEnd ++ ((catalog.components.map fun c => (c.name, c.template)).flatMap
              writtenEntry ++ ending frame))))))) := by
  have he : (catalog.components.map entry).flatMap (fun e => ['\n'] ++ finish e) =
      (catalog.components.map fun c => (c.name, c.template)).flatMap writtenEntry := by
    simp only [List.flatMap_map, finish_entry, List.singleton_append, newline_entry]
  rw [text, parts, List.cons_append, List.map_cons, Text.join, Text.intercalate_cons,
    List.flatMap_map, List.cons_append, List.flatMap_cons, List.flatMap_append, he,
    finish_declarations]
  delta declarations attributeMark stylesMark orderMark orderEnd ending
  simp only [List.append_assoc, List.cons_append, List.nil_append, List.flatMap_cons,
    List.flatMap_nil]

lemma pair?_ending : pair? (ending .bundled) = none := by
  have hf : finish Fragment.startup = Fragment.startup :=
    finish_ofLines (c := ';') (by decide) (by decide)
  have he : ending .bundled = '\n' :: Fragment.startup ++ footer := by
    rw [ending, Frame.bundled, hf]
  have hd : (ending .bundled).dropPrefix? nameMark = none := by
    rw [he]
    decide +kernel
  rw [pair?, literal?, hd]
  rfl

def contents (catalog : Catalog) (settings : Settings) : Contents where
  attributeName := settings.componentAttribute
  styles := catalog.styles
  order := catalog.names
  entries := catalog.components.map fun c => (c.name, c.template)

lemma decode?_text (catalog : Catalog) (settings : Settings) :
    decode? .bundled (text .bundled catalog settings) = some (contents catalog settings) := by
  have hnames (s : Text) := names_join catalog.names (orderEnd ++ s) rfl rfl
  have hentries := Reading.many_flatMap writtenEntry pair?_append (by simp [writtenEntry, nameMark])
    pair?_ending (catalog.components.map fun c => (c.name, c.template))
  rw [text_eq, decode?]
  simp only [literal?_append, Option.bind_eq_bind, Option.bind_some, Reading.dropPrefix?_append,
    hnames, hentries, if_true, Utf16.text?_ofText, contents]
  rfl

lemma text_congr {catalog catalog' : Catalog} {settings settings' : Settings}
    (h : contents catalog settings = contents catalog' settings') :
    text .bundled catalog settings = text .bundled catalog' settings' := by
  simp only [contents, Contents.mk.injEq] at h
  obtain ⟨ha, hs, ho, he⟩ := h
  rw [text_eq, text_eq, ha, hs, ho, he]

theorem text_recovers_contents (units : List SourceUnit) (settings : Settings) :
    let catalog := Catalog.ofUnits units
    decode? .bundled (text .bundled catalog settings) =
        some {
          attributeName := settings.componentAttribute
          styles := Text.join ['\n'] ((catalog.components.map Component.style).filter (· ≠ []))
          order := catalog.names
          entries := catalog.components.map fun c => (c.name, c.template) } ∧
      (catalog.components.map fun c => (c.name, c.template)).map Prod.fst = catalog.names ∧
      ∀ (units' : List SourceUnit) (settings' : Settings),
        let catalog' := Catalog.ofUnits units'
        text .bundled catalog settings = text .bundled catalog' settings' ↔
          settings.componentAttribute = settings'.componentAttribute ∧
          catalog.styles = catalog'.styles ∧
          catalog.names = catalog'.names ∧
          (catalog.components.map fun c => (c.name, c.template)) =
            catalog'.components.map fun c => (c.name, c.template) := by
  intro catalog
  refine ⟨decode?_text catalog settings, ?_, ?_⟩
  · rw [List.map_map]
    exact Catalog.names_ofUnits units
  · intro units' settings' catalog'
    constructor
    · intro h
      have hd := decode?_text catalog settings
      rw [h, decode?_text] at hd
      have hc : contents catalog settings = contents catalog' settings' := (Option.some.inj hd).symm
      simpa only [contents, Contents.mk.injEq] using hc
    · rintro ⟨ha, hs, ho, he⟩
      apply text_congr
      simp only [contents, ha, hs, ho, he]

end ComponentCompiler.Module
