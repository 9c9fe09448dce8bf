import ComponentCompiler.Component.Source
import ComponentCompiler.Keyed
import ComponentCompiler.Template.Basic

/-!
Components and the catalog that keeps them in order of first registration. That order is the order
of everything in the artifacts.
-/

namespace ComponentCompiler

structure Component where
  name : Utf16
  template : Text
  style : Text
  propNames : List Text
  deriving DecidableEq, Repr

def Component.ofUnit (unit : SourceUnit) : Component where
  name := unit.name
  template := unit.template
  style := unit.style
  propNames := Template.propNames unit.template

structure Catalog where
  entries : Keyed Utf16 Component := []
  deriving DecidableEq, Repr

namespace Catalog

def empty : Catalog := {}

def register (catalog : Catalog) (unit : SourceUnit) : Catalog :=
  ⟨catalog.entries.put unit.name (.ofUnit unit)⟩

def ofUnits (units : List SourceUnit) : Catalog :=
  units.foldl register empty

def names (catalog : Catalog) : List Utf16 :=
  catalog.entries.keys

def components (catalog : Catalog) : List Component :=
  catalog.entries.values

def get? (catalog : Catalog) (name : Utf16) : Option Component :=
  catalog.entries.find? name

def contains (catalog : Catalog) (name : Utf16) : Bool :=
  (catalog.get? name).isSome

def size (catalog : Catalog) : Nat :=
  catalog.entries.length

def styles (catalog : Catalog) : Text :=
  Text.join ['\n'] ((catalog.components.map Component.style).filter (· ≠ []))

end Catalog

end ComponentCompiler
