import ComponentCompiler.Artifact.Fragment
import ComponentCompiler.Component.Catalog
import ComponentCompiler.Settings.Basic
import ComponentCompiler.Text.Literal

/-!
The script module: declarations for the fixed scripts, and one entry for each component of a
catalog, in its order. All that comes from the components stands in string literals.
-/

namespace ComponentCompiler.Module

structure Frame where
  opening : Text
  closing : Text
  deriving DecidableEq, Repr

def Frame.bundled : Frame :=
  ⟨Fragment.substitution, Fragment.startup⟩

inductive Frame.Fault where
  | tooFew (count : Nat)
  | tooMany
  deriving DecidableEq, Repr

def Frame.Fault.message : Frame.Fault → Text
  | .tooFew count =>
    "not enough values to unpack (expected 2, got ".toList ++ Text.ofNat count ++ [')']
  | .tooMany => "too many values to unpack (expected 2)".toList

def Frame.ofList : List Text → Except Frame.Fault Frame
  | [] => .error (.tooFew 0)
  | [_] => .error (.tooFew 1)
  | [opening, closing] => .ok ⟨opening, closing⟩
  | _ => .error .tooMany

def entry (component : Component) : Text :=
  "  ComponentRegistry[".toList ++ Text.Literal.encode component.name ++
    "] = function render(container, props) \x7b\n".toList ++
    "    assertContainer(container);\n".toList ++
    "    container.innerHTML = renderTemplate(".toList ++
    Text.Literal.encode (.ofText component.template) ++ ", props || \x7b\x7d);\n".toList ++
    "  \x7d;\n".toList

def declarations (catalog : Catalog) (settings : Settings) : Text :=
  "  var COMPONENT_ATTRIBUTE = ".toList ++ Text.Literal.encode settings.componentAttribute ++
    ";\n".toList ++
    "  var COMPONENT_STYLES = ".toList ++ Text.Literal.encode (.ofText catalog.styles) ++
    ";\n".toList ++
    "  var COMPONENT_ORDER = [".toList ++
    Text.join ", ".toList (catalog.names.map Text.Literal.encode) ++ "];\n".toList ++
    "  var ComponentRegistry = \x7b\x7d;\n".toList

def finish (part : Text) : Text :=
  Text.dropEndWhile (· = '\n') part ++ ['\n']

def parts (frame : Frame) (catalog : Catalog) (settings : Settings) : List Text :=
  frame.opening :: declarations catalog settings :: catalog.components.map entry ++ [frame.closing]

def header : Text :=
  "// Generated by zmx. Do not edit.\n(function (global) \x7b\n  'use strict';\n\n".toList

def footer : Text :=
  "\x7d)(window);\n".toList

def text (frame : Frame) (catalog : Catalog) (settings : Settings) : Text :=
  header ++ Text.join ['\n'] ((parts frame catalog settings).map finish) ++ footer

end ComponentCompiler.Module
