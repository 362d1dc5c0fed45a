/-!
# Shell words

Quoting a text so that a POSIX shell reads it back as one word.
-/

set_option autoImplicit false

namespace ClusterScaler.Shell

/-- Whether a character stands for itself in a shell word wherever it occurs. -/
def isPlain (c : Char) : Bool :=
  c.isAlphanum || ['-', '_', '.', '/', ':', '=', '@', ',', '+'].contains c

/-- One character between single quotes. A single quote ends the quoting, stands between double
quotes, and starts the quoting again. -/
def quoteChar (c : Char) : List Char :=
  if c = '\'' then ['\'', '"', '\'', '"', '\''] else [c]

/-- A text as one shell word. -/
def quote (s : String) : String :=
  if !s.isEmpty && s.toList.all isPlain then s
  else String.ofList ('\'' :: s.toList.flatMap quoteChar ++ ['\''])

end ClusterScaler.Shell
