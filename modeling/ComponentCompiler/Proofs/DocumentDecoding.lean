import ComponentCompiler.Artifact.Document
import ComponentCompiler.Proofs.Markup
import ComponentCompiler.Proofs.ModuleDecoding

/-! The document tells what it was made of: a reader finds the title, the identifier of the root
element, the containers, the module and the identifier in the hook, whatever these texts are, and
its containers are those of the module. -/

namespace ComponentCompiler.Document

open Reading (many)
open Text.Literal (encode read? read?_encode)
open Text.Markup (escape field field_escape)
open Utf16 (ofString ofText unit)

lemma indent_of_mem {line : Text} {c : Char} (hc : c ∈ line) (hb : Text.isBlank c = false) :
    indent line = "    ".toList ++ line := by
  rw [indent, if_neg]
  intro ht
  have hall : ∀ x ∈ line.dropWhile Text.isBlank, Text.isBlank x = true :=
    List.rdropWhile_eq_nil_iff.mp ht
  have hnil : line.dropWhile Text.isBlank = [] := by
    by_contra hn
    have hh := hall _ (List.head_mem hn)
    exact Bool.false_ne_true ((List.head_dropWhile_not Text.isBlank hn).symm.trans hh)
  rw [List.dropWhile_eq_nil_iff.mp hnil c hc] at hb
  exact Bool.false_ne_true hb.symm

def Plain (line : Text) : Prop :=
  '\n' ∉ line ∧ '_' ∉ line

instance (line : Text) : Decidable (Plain line) :=
  inferInstanceAs (Decidable (_ ∧ _))

lemma hook_of_lines {source : Text} {settings : Settings} {lines : List Text}
    (hs : bootScript source settings = lines.flatMap (· ++ ['\n']))
    (hl : ∀ line ∈ lines, '\n' ∉ line) (hlast : ∃ line, lines.getLast? = some line ∧ line ≠ []) :
    hook source settings = Text.join ['\n'] (lines.map indent) := by
  obtain ⟨last, hg, hne⟩ := hlast
  obtain ⟨lines, rfl⟩ := List.getLast?_eq_some_iff.mp hg
  have hd : Text.dropEndWhile (· = '\n') (bootScript source settings) =
      Text.join ['\n'] (lines ++ [last]) := by
    have hc : decide (last.getLast hne = '\n') = false := by
      apply decide_eq_false
      intro he
      exact hl last (by simp) (he ▸ List.getLast_mem hne)
    rw [hs, List.flatMap_append, List.flatMap_singleton, ← List.append_assoc,
      Text.dropEndWhile_newline, Text.join, Text.intercalate_append_cons, List.flatMap_nil,
      List.append_nil]
    conv_lhs => rw [← List.dropLast_append_getLast hne, ← List.append_assoc]
    rw [Text.dropEndWhile_concat hc, List.append_assoc, List.dropLast_append_getLast hne]
  rw [hook, hd, Text.splitAt_join (by simp) hl]

lemma notMem_ofLines {lines : List String} (h : ∀ line ∈ lines, Plain line.toList) :
    '_' ∉ Fragment.ofLines lines := by
  intro hm
  obtain ⟨line, hl, hc⟩ := List.mem_flatMap.mp hm
  rcases List.mem_append.mp hc with hc | hc
  · exact (h line hl).2 hc
  · simp at hc

lemma bootScript_ofLines {before after : List String} {line : String} {left right : Text}
    (settings : Settings) (hline : line.toList = left ++ Fragment.rootMark ++ right)
    (hb : ∀ l ∈ before, Plain l.toList) (ha : ∀ l ∈ after, Plain l.toList)
    (hl : Plain left) (hr : Plain right) :
    bootScript (Fragment.ofLines (before ++ line :: after)) settings =
      (before.map String.toList ++ (left ++ encode settings.rootId ++ right) ::
        after.map String.toList).flatMap (· ++ ['\n']) := by
  have hmark : Fragment.rootMark = '_' :: "_ROOT_ID__".toList := rfl
  have hbefore : '_' ∉ Fragment.ofLines before ++ left := by
    simp [notMem_ofLines hb, hl.2]
  have hafter : '_' ∉ right ++ '\n' :: Fragment.ofLines after := by
    simp [notMem_ofLines ha, hr.2]
  have hsource : Fragment.ofLines (before ++ line :: after) =
      (Fragment.ofLines before ++ left) ++ Fragment.rootMark ++
        (right ++ '\n' :: Fragment.ofLines after) := by
    simp [Fragment.ofLines, hline]
  rw [bootScript, hsource, hmark, Text.replace_once hbefore hafter]
  simp [Fragment.ofLines, List.flatMap_map]

lemma hook_ofLines (before after : List String) (line : String) (left right : Text)
    (settings : Settings) (hline : line.toList = left ++ Fragment.rootMark ++ right)
    (hb : ∀ l ∈ before, Plain l.toList) (ha : ∀ l ∈ after, Plain l.toList)
    (hl : Plain left) (hr : Plain right) (hc : ∃ c ∈ left, Text.isBlank c = false)
    (hlast : ∃ l, after.getLast? = some l ∧ l.toList ≠ []) :
    hook (Fragment.ofLines (before ++ line :: after)) settings =
      (before.flatMap fun l => indent l.toList ++ ['\n']) ++ "    ".toList ++ left ++
        (encode settings.rootId ++ (right ++ after.flatMap fun l => '\n' :: indent l.toList)) := by
  obtain ⟨c, hcl, hcb⟩ := hc
  obtain ⟨last, hg, hne⟩ := hlast
  have hliteral : '\n' ∉ encode settings.rootId := by
    intro hm
    exact absurd (Text.Literal.printable_of_mem_encode hm) (by decide)
  have hmiddle : '\n' ∉ left ++ encode settings.rootId ++ right := by
    simp [hl.1, hr.1, hliteral]
  have hind : indent (left ++ encode settings.rootId ++ right) =
      "    ".toList ++ (left ++ encode settings.rootId ++ right) :=
    indent_of_mem (by simp [hcl]) hcb
  have hlines : ∀ l ∈ before.map String.toList ++ (left ++ encode settings.rootId ++ right) ::
      after.map String.toList, '\n' ∉ l := by
    intro l hm
    simp only [List.mem_append, List.mem_cons, List.mem_map] at hm
    rcases hm with ⟨l, hm, rfl⟩ | rfl | ⟨l, hm, rfl⟩
    · exact (hb l hm).1
    · exact hmiddle
    · exact (ha l hm).1
  have hend : ∃ l, (before.map String.toList ++ (left ++ encode settings.rootId ++ right) ::
      after.map String.toList).getLast? = some l ∧ l ≠ [] := by
    obtain ⟨init, rfl⟩ := List.getLast?_eq_some_iff.mp hg
    refine ⟨last.toList, ?_, hne⟩
    rw [List.getLast?_append, List.getLast?_cons, List.map_append, List.getLast?_append]
    simp
  rw [hook_of_lines (bootScript_ofLines settings hline hb ha hl hr) hlines hend, List.map_append,
    List.map_cons, hind, Text.join, Text.intercalate_append_cons]
  simp only [List.flatMap_map, List.append_assoc, List.singleton_append]

def lookup : Text := "getElementById(".toList

lemma hook_boot (settings : Settings) :
    ∃ before after, hook Fragment.boot settings =
      before ++ lookup ++ (encode settings.rootId ++ after) ∧
        'g' ∉ before ∧ '<' ∉ before ∧ '<' ∉ after := by
  have h : hook Fragment.boot settings = _ :=
    hook_ofLines [_, _] _ _ ("    var root = document.".toList ++ lookup) ");".toList settings rfl
      (by decide) (by decide) (by decide) (by decide) ⟨'v', by decide, by decide⟩
      ⟨_, rfl, by decide⟩
  rw [← List.append_assoc _ _ lookup] at h
  exact ⟨_, _, h, by decide +kernel, by decide +kernel, by decide +kernel⟩

structure Contents where
  title : Utf16
  rootId : Utf16
  containers : List (Utf16 × Utf16)
  moduleFilename : Utf16
  hookId : Utf16
  deriving DecidableEq, Repr

def titleMark : Utf16 :=
  ofString "<!DOCTYPE html>\n<html lang=\"en\">\n<head>\n  <meta charset=\"UTF-8\">\n" ++
    ofString "  <meta name=\"viewport\" content=\"width=device-width, initial-scale=1.0\">\n" ++
    ofString "  <title>"

def idMark : Utf16 := ofString "</title>\n</head>\n<body>\n  " ++ ofString "<div id=\""

def idEnd : Utf16 := ofString "\">"

def containerMark : Utf16 := ofString "\n    " ++ ofString "<div "

def nameEnd : Utf16 := ofString "\"></div>"

def containersEnd (found : List (Utf16 × Utf16)) : Utf16 :=
  if found = [] then [] else ofString "\n  "

def moduleMark : Utf16 := ofString "</div>" ++ ofString "\n  <script src=\"./"

def hookMark : Utf16 := ofString "\"></script>\n  <script>\n"

def container? (s : Utf16) : Option ((Utf16 × Utf16) × Utf16) := do
  let s ← s.dropPrefix? containerMark
  let (label, s) := field (unit '"') s
  let s ← s.dropPrefix? [unit '"']
  let (name, s) := field (unit '"') s
  let s ← s.dropPrefix? nameEnd
  return ((label.dropLast, name), s)

def hookId? (s : Utf16) : Option Utf16 := do
  let (_, s) ← Text.cut? lookup (← s.text?)
  let (id, _) ← read? s
  return id

def decode? (s : Utf16) : Option Contents := do
  let s ← s.dropPrefix? titleMark
  let (title, s) := field (unit '<') s
  let s ← s.dropPrefix? idMark
  let (rootId, s) := field (unit '"') s
  let s ← s.dropPrefix? idEnd
  let (containers, s) := many container? s
  let s ← s.dropPrefix? (containersEnd containers ++ moduleMark)
  let (moduleFilename, s) := field (unit '"') s
  let s ← s.dropPrefix? hookMark
  return ⟨title, rootId, containers, moduleFilename, ← hookId? s⟩

def writtenContainer (c : Utf16 × Utf16) : Utf16 :=
  containerMark ++ (escape (c.1 ++ ofString "=") ++ ([unit '"'] ++ (escape c.2 ++ nameEnd)))

lemma container?_append (c : Utf16 × Utf16) (s : Utf16) :
    container? (writtenContainer c ++ s) = some (c, s) := by
  have hlabel : field (unit '"') (escape (c.1 ++ ofString "=") ++
      ([unit '"'] ++ (escape c.2 ++ (nameEnd ++ s)))) = _ := field_escape (by decide) _ rfl
  have hname : field (unit '"') (escape c.2 ++ (nameEnd ++ s)) = _ :=
    field_escape (by decide) _ rfl
  have hlast : (c.1 ++ ofString "=").dropLast = c.1 := List.dropLast_concat
  simp only [container?, writtenContainer, List.append_assoc, Option.bind_eq_bind,
    Reading.dropPrefix?_append, Option.bind_some, hlabel, hname, hlast, pure]

lemma container_eq (settings : Settings) (name : Utf16) :
    ofString "\n    " ++ container settings name =
      writtenContainer (settings.componentAttribute, name) := by
  have h : escape (settings.componentAttribute ++ ofString "=") =
      escape settings.componentAttribute ++ ofString "=" := List.flatMap_append
  have hq : ofString "=\"" = ofString "=" ++ [unit '"'] := rfl
  rw [container, writtenContainer, h, hq, containerMark, nameEnd]
  simp only [List.append_assoc]

lemma root_eq (catalog : Catalog) (settings : Settings) :
    root catalog settings =
      ofString "<div id=\"" ++ (escape settings.rootId ++ (idEnd ++
        ((catalog.names.map fun name => (settings.componentAttribute, name)).flatMap
          writtenContainer ++
        (containersEnd (catalog.names.map fun name => (settings.componentAttribute, name)) ++
          ofString "</div>")))) := by
  rw [root, containers, idEnd]
  cases catalog.names with
  | nil => simp only [List.map_nil, List.flatMap_nil, containersEnd, if_true, List.append_assoc,
      List.nil_append]
  | cons name names =>
    have hmore : (names.map (container settings)).flatMap (ofString "\n    " ++ ·) =
        (names.map fun name => (settings.componentAttribute, name)).flatMap writtenContainer := by
      simp only [List.flatMap_map, container_eq]
    simp only [List.map_cons, List.flatMap_cons, Utf16.join, Text.intercalate_cons, hmore,
      ← container_eq, containersEnd, reduceCtorEq, if_false, List.append_assoc]

lemma hookId?_script (settings : Settings) (s : Text) :
    hookId? (ofText (hook Fragment.boot settings ++ s)) = some settings.rootId := by
  obtain ⟨before, after, hh, hb, -⟩ := hook_boot settings
  have hcut : Text.cut? lookup (before ++ lookup ++ (encode settings.rootId ++ (after ++ s))) =
      some (before, encode settings.rootId ++ (after ++ s)) :=
    Text.cut?_of_head_notMem hb "etElementById(".toList _
  have hs : hook Fragment.boot settings ++ s =
      before ++ lookup ++ (encode settings.rootId ++ (after ++ s)) := by
    rw [hh]
    simp only [List.append_assoc]
  simp only [hookId?, Utf16.text?_ofText, hs, hcut, Option.bind_eq_bind, Option.bind_some,
    read?_encode, pure]

lemma text_eq (catalog : Catalog) (settings : Settings) :
    text Fragment.boot catalog settings =
      titleMark ++ (escape settings.title ++ (idMark ++ (escape settings.rootId ++ (idEnd ++
        ((catalog.names.map fun name => (settings.componentAttribute, name)).flatMap
          writtenContainer ++
        (containersEnd (catalog.names.map fun name => (settings.componentAttribute, name)) ++
          moduleMark ++ (escape settings.moduleFilename ++ (hookMark ++
            ofText (hook Fragment.boot settings ++
              "\n  </script>\n</body>\n</html>\n".toList))))))))) := by
  have hs : ofText (hook Fragment.boot settings ++ "\n  </script>\n</body>\n</html>\n".toList) =
      ofText (hook Fragment.boot settings) ++ ofString "\n  </script>\n</body>\n</html>\n" :=
    List.flatMap_append
  rw [text, root_eq, hs, titleMark, idMark, moduleMark, hookMark]
  simp only [List.append_assoc]

lemma container?_containersEnd (found : List (Utf16 × Utf16)) (s : Utf16) :
    container? (containersEnd found ++ moduleMark ++ s) = none := by
  have hd : (containersEnd found ++ moduleMark ++ s).dropPrefix? containerMark = none := by
    cases found <;> rfl
  rw [container?, hd]
  rfl

lemma many_containers (found : List (Utf16 × Utf16)) (s : Utf16) :
    many container? (found.flatMap writtenContainer ++ (containersEnd found ++ moduleMark ++ s)) =
      (found, containersEnd found ++ moduleMark ++ s) := by
  apply Reading.many_flatMap writtenContainer container?_append
  · intro c
    simp [writtenContainer]
  · exact container?_containersEnd found s

lemma decode?_text (catalog : Catalog) (settings : Settings) :
    decode? (text Fragment.boot catalog settings) = some {
      title := settings.title
      rootId := settings.rootId
      containers := catalog.names.map fun name => (settings.componentAttribute, name)
      moduleFilename := settings.moduleFilename
      hookId := settings.rootId } := by
  have htitle (s : Utf16) : field (unit '<') (escape settings.title ++ (idMark ++ s)) = _ :=
    field_escape (by decide) _ rfl
  have hid (s : Utf16) : field (unit '"') (escape settings.rootId ++ (idEnd ++ s)) = _ :=
    field_escape (by decide) _ rfl
  have hmodule (s : Utf16) :
      field (unit '"') (escape settings.moduleFilename ++ (hookMark ++ s)) = _ :=
    field_escape (by decide) _ rfl
  rw [text_eq, decode?]
  simp only [Option.bind_eq_bind, Reading.dropPrefix?_append, Option.bind_some, htitle, hid,
    many_containers, hmodule, hookId?_script, pure]

theorem text_recovers_settings (units : List SourceUnit) (settings : Settings) :
    let catalog := Catalog.ofUnits units
    decode? (text Fragment.boot catalog settings) =
        some {
          title := settings.title
          rootId := settings.rootId
          containers := catalog.names.map fun name => (settings.componentAttribute, name)
          moduleFilename := settings.moduleFilename
          hookId := settings.rootId } ∧
      (decode? (text Fragment.boot catalog settings)).map (fun d => d.containers.map Prod.snd) =
        (Module.decode? .bundled (Module.text .bundled catalog settings)).map fun m => m.order := by
  intro catalog
  refine ⟨decode?_text catalog settings, ?_⟩
  rw [decode?_text, Module.decode?_text]
  simp [Module.contents]

end ComponentCompiler.Document
