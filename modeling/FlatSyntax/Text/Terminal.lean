/-!
Terminal sequences: the escape character, an opening bracket, any number of parameter characters and
a final letter. Text for a terminal may be styled with them; text for a file has them removed.
-/

namespace FlatSyntax.Text.Terminal

def escape : Char := '\x1b'

/-- The characters between the opening bracket and the final letter of a sequence. -/
def isParameter (c : Char) : Bool :=
  c == ';' || c == '?' || ('0' ≤ c && c ≤ '9')

def isFinal (c : Char) : Bool :=
  ('a' ≤ c && c ≤ 'z') || ('A' ≤ c && c ≤ 'Z')

/-- What follows a sequence whose escape character and bracket have been read, if it is one. -/
def afterParameters : List Char → Option (List Char)
  | [] => none
  | c :: rest =>
      if isParameter c then afterParameters rest else if isFinal c then some rest else none

/-- What follows the sequence at the start of a text, if there is one. -/
def afterSequence : List Char → Option (List Char)
  | c :: '[' :: rest => if c = escape then afterParameters rest else none
  | _ => none

theorem afterParameters_length_lt {text rest : List Char}
    (hRest : afterParameters text = some rest) : rest.length < text.length := by
  induction text with
  | nil => simp [afterParameters] at hRest
  | cons c more ih =>
      simp only [afterParameters] at hRest
      split at hRest
      · exact Nat.lt_succ_of_lt (ih hRest)
      · split at hRest
        · cases hRest
          exact Nat.lt_succ_self _
        · cases hRest

theorem afterSequence_length_lt {text rest : List Char}
    (hRest : afterSequence text = some rest) : rest.length < text.length := by
  unfold afterSequence at hRest
  split at hRest
  · split at hRest
    · have hLength := afterParameters_length_lt hRest
      simp only [List.length_cons]
      omega
    · cases hRest
  · cases hRest

/-- Remove every terminal sequence, from left to right. What closes up over a removed sequence is
not looked at again. -/
def strip : List Char → List Char
  | [] => []
  | c :: rest =>
      match _hSequence : afterSequence (c :: rest) with
      | some after => strip after
      | none => c :: strip rest
  termination_by text => text.length
  decreasing_by
    · exact afterSequence_length_lt _hSequence
    · exact Nat.lt_succ_self _

/-- Show a text in cyan and reset the terminal after it. -/
def cyan (text : String) : String :=
  String.singleton escape ++ "[36m" ++ text ++ String.singleton escape ++ "[0m"

end FlatSyntax.Text.Terminal
