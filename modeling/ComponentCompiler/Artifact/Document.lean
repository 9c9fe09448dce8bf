import ComponentCompiler.Artifact.Fragment
import ComponentCompiler.Component.Catalog
import ComponentCompiler.Settings.Basic
import ComponentCompiler.Text.Literal

/-!
The host document: a root element with one container for each component, the reference to the module
and the hook that starts it. In text and attributes, the five characters that have a meaning in
markup are written as references.
-/

namespace ComponentCompiler.Text.Markup

open Utf16 (ofString unit)

def escapeUnit (u : UInt16) : Utf16 :=
  if u = unit '&' then ofString "&amp;"
  else if u = unit '<' then ofString "&lt;"
  else if u = unit '>' then ofString "&gt;"
  else if u = unit '"' then ofString "&quot;"
  else if u = unit '\x27' then ofString "&#x27;"
  else [u]

def escape (s : Utf16) : Utf16 :=
  s.flatMap escapeUnit

end ComponentCompiler.Text.Markup

namespace ComponentCompiler.Document

open Text.Markup (escape)
open Utf16 (ofString ofText)

def container (settings : Settings) (name : Utf16) : Utf16 :=
  ofString "<div " ++ escape settings.componentAttribute ++ ofString "=\"" ++ escape name ++
    ofString "\"></div>"

def containers (catalog : Catalog) (settings : Settings) : List Utf16 :=
  catalog.names.map (container settings)

def root (catalog : Catalog) (settings : Settings) : Utf16 :=
  let inside :=
    match containers catalog settings with
    | [] => []
    | cs => ofString "\n    " ++ Utf16.join (ofString "\n    ") cs ++ ofString "\n  "
  ofString "<div id=\"" ++ escape settings.rootId ++ ofString "\">" ++ inside ++ ofString "</div>"

def bootScript (source : Text) (settings : Settings) : Text :=
  Text.replace Fragment.rootMark (Text.Literal.encode settings.rootId) source

def indent (line : Text) : Text :=
  if Text.trim line = [] then [] else "    ".toList ++ line

def hook (source : Text) (settings : Settings) : Text :=
  let script := Text.dropEndWhile (· = '\n') (bootScript source settings)
  Text.join ['\n'] ((Text.splitAt '\n' script).map indent)

def text (boot : Text) (catalog : Catalog) (settings : Settings) : Utf16 :=
  ofString "<!DOCTYPE html>\n<html lang=\"en\">\n<head>\n  <meta charset=\"UTF-8\">\n" ++
    ofString "  <meta name=\"viewport\" content=\"width=device-width, initial-scale=1.0\">\n" ++
    ofString "  <title>" ++ escape settings.title ++ ofString "</title>\n</head>\n<body>\n  " ++
    root catalog settings ++
    ofString "\n  <script src=\"./" ++ escape settings.moduleFilename ++
    ofString "\"></script>\n  <script>\n" ++ ofText (hook boot settings) ++
    ofString "\n  </script>\n</body>\n</html>\n"

end ComponentCompiler.Document
