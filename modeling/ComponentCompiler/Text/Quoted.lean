import ComponentCompiler.Text.Printable

/-!
Quoted text, as it stands inside lists and records: between single quotes, or between double quotes
if that avoids an escape, with unprintable characters by their code.
-/

namespace ComponentCompiler.Text.Quoted

def quoteFor (s : Text) : Char :=
  if '\x27' ∈ s ∧ '"' ∉ s then '"' else '\x27'

def escapeCode (n : Nat) : Text :=
  if n < 0x100 then '\\' :: 'x' :: hex 2 n
  else if n < 0x10000 then '\\' :: 'u' :: hex 4 n
  else '\\' :: 'U' :: hex 8 n

def encodeChar (quote c : Char) : Text :=
  if c = quote ∨ c = '\\' then ['\\', c]
  else if c = '\n' then ['\\', 'n']
  else if c = '\r' then ['\\', 'r']
  else if c = '\t' then ['\\', 't']
  else if isPrintable c then [c]
  else escapeCode c.toNat

def encode (s : Text) : Text :=
  let quote := quoteFor s
  quote :: s.flatMap (encodeChar quote) ++ [quote]

def encodeList (items : List Text) : Text :=
  '[' :: join ", ".toList (items.map encode) ++ [']']

end ComponentCompiler.Text.Quoted
