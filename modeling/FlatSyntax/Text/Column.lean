/-!
Padding of a text to the width of a column, counted in characters. A text that is wider than its
column is left as it is.
-/

namespace FlatSyntax.Text

/-- Fill a column up on the right. -/
def padRight (width : Nat) (text : String) : String :=
  text ++ String.ofList (List.replicate (width - text.length) ' ')

/-- Fill a column up on the left. -/
def padLeft (width : Nat) (text : String) : String :=
  String.ofList (List.replicate (width - text.length) ' ') ++ text

end FlatSyntax.Text
