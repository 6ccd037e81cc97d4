import FlatSyntax.Lexeme.Basic
import FlatSyntax.Text.Lines

/-!
Include directives as they stand in source text: the marker and the rest of its line.
-/

namespace FlatSyntax.Directive

/-- How an include directive starts. What follows on its line is part of it, whatever that is. -/
def marker : List Char := "#include".toList

/-- Read a directive that starts with the given character. -/
def read (first : Char) (rest : List Char) : Reading :=
  let more := Text.sourceLine rest
  .lexeme { kind := .directive, value := Text.trimEnd (first :: more), first, more }
    (Text.afterSourceLine rest)

@[simp] theorem source_read (first : Char) (rest : List Char) :
    (read first rest).source = first :: rest := by
  simp [read, Reading.source, Lexeme.raw, Text.sourceLine_append_afterSourceLine]

end FlatSyntax.Directive
