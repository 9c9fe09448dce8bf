import ComponentCompiler.Artifact.Document
import ComponentCompiler.Proofs.ModuleDecoding

/-! A component registered again keeps its place. The document stays as it is, and so does the
module up to the component's entry and the literal of the styles. -/

namespace ComponentCompiler

lemma Document.text_of_names {catalog other : Catalog} (h : catalog.names = other.names)
    (boot : Text) (settings : Settings) :
    text boot catalog settings = text boot other settings := by
  rw [text, text, root, root, containers, containers, h]

lemma Module.exists_text_around (frame : Frame) (settings : Settings) (names : List Utf16)
    (before after : List Component) :
    ∃ opening between rest, ∀ (catalog : Catalog) (component : Component),
      catalog.names = names → catalog.components = before ++ component :: after →
        text frame catalog settings =
          opening ++ "  var COMPONENT_STYLES = ".toList ++
            Text.Literal.encode (.ofText catalog.styles) ++ between ++ entry component ++ rest := by
  refine ⟨attributeMark frame ++ Text.Literal.encode settings.componentAttribute ++ ";\n".toList,
    orderMark ++ Text.join ", ".toList (names.map Text.Literal.encode) ++ orderEnd ++
      (before.map fun c => (c.name, c.template)).flatMap writtenEntry ++ ['\n'],
    (after.map fun c => (c.name, c.template)).flatMap writtenEntry ++ ending frame, ?_⟩
  intro catalog component hnames hcomponents
  rw [text_eq, hnames, hcomponents, stylesMark, List.map_append, List.map_cons,
    List.flatMap_append, List.flatMap_cons, ← newline_entry]
  simp only [List.append_assoc, List.cons_append, List.nil_append]

namespace Catalog

variable {catalog : Catalog} {unit : SourceUnit} {component : Component}

lemma exists_components_of_get? (h : catalog.get? unit.name = some component) :
    (catalog.register unit).names = catalog.names ∧ ∃ before after,
      catalog.components = before ++ component :: after ∧
      (catalog.register unit).components = before ++ .ofUnit unit :: after := by
  obtain ⟨before, after, hold, hnew⟩ := Keyed.exists_put_of_find? h (Component.ofUnit unit)
  refine ⟨?_, before.map Prod.snd, after.map Prod.snd, ?_, ?_⟩
  · rw [names, names, register, hnew, hold]
    simp [Keyed.keys]
  · rw [components, hold]
    simp [Keyed.values]
  · rw [components, register, hnew]
    simp [Keyed.values]

lemma styles_register (h : catalog.get? unit.name = some component)
    (hstyle : unit.style = component.style) : (catalog.register unit).styles = catalog.styles := by
  obtain ⟨-, before, after, hold, hnew⟩ := exists_components_of_get? h
  have hunit : (Component.ofUnit unit).style = component.style := hstyle
  rw [styles, styles, hold, hnew, List.map_append, List.map_append, List.map_cons, List.map_cons,
    hunit]

theorem register_local (h : catalog.get? unit.name = some component) (frame : Module.Frame)
    (boot : Text) (settings : Settings) :
    let later := catalog.register unit
    later.names = catalog.names ∧
      Document.text boot later settings = Document.text boot catalog settings ∧
      (unit.style = component.style → ∃ before after,
        Module.text frame catalog settings = before ++ Module.entry component ++ after ∧
        Module.text frame later settings = before ++ Module.entry (.ofUnit unit) ++ after) ∧
      ∃ opening between after,
        Module.text frame catalog settings = opening ++ "  var COMPONENT_STYLES = ".toList ++
          Text.Literal.encode (.ofText catalog.styles) ++ between ++ Module.entry component ++
            after ∧
        Module.text frame later settings = opening ++ "  var COMPONENT_STYLES = ".toList ++
          Text.Literal.encode (.ofText later.styles) ++ between ++ Module.entry (.ofUnit unit) ++
            after := by
  intro later
  obtain ⟨hnames, before, after, hold, hnew⟩ := exists_components_of_get? h
  obtain ⟨opening, between, rest, htext⟩ :=
    Module.exists_text_around frame settings catalog.names before after
  have hmodule := htext catalog component rfl hold
  have hmodule' := htext later (.ofUnit unit) hnames hnew
  refine ⟨hnames, Document.text_of_names hnames boot settings, ?_,
    opening, between, rest, hmodule, hmodule'⟩
  intro hstyle
  rw [styles_register h hstyle] at hmodule'
  exact ⟨_, rest, hmodule, hmodule'⟩

def card : SourceUnit :=
  { name := .ofString "card", template := ['x'], style := ['s'] }

def cardAgain : SourceUnit :=
  { name := .ofString "card", template := ['y'], style := ['s'] }

theorem register_cardAgain :
    (ofUnits [card, { name := .ofString "list" }]).get? cardAgain.name = some (.ofUnit card) ∧
    cardAgain.style = (Component.ofUnit card).style ∧
    ∃ before after,
      Module.text .bundled (ofUnits [card, { name := .ofString "list" }]) {} =
        before ++ Module.entry (.ofUnit card) ++ after ∧
      Module.text .bundled ((ofUnits [card, { name := .ofString "list" }]).register cardAgain) {} =
        before ++ Module.entry (.ofUnit cardAgain) ++ after := by
  have h : (ofUnits [card, { name := .ofString "list" }]).get? cardAgain.name =
      some (.ofUnit card) := rfl
  obtain ⟨-, -, hmodule, -⟩ := register_local h .bundled Fragment.boot {}
  exact ⟨h, rfl, hmodule rfl⟩

end Catalog

end ComponentCompiler
