import FlatSyntax.Parser.Form

/-!
Walks over a token list. At each place one construct is recognized and the walk goes on after the
tokens that it takes, until no token is left or a rule takes none. Apart from the built-in forms a
walk follows pinned rules, each of which decides at a single index.
-/

namespace FlatSyntax

/-- A rule that at one index of the token list, and nowhere else, builds an empty node and reports
that it took a given number of tokens. -/
structure PinnedRule where
  index : Nat
  kind : NodeKind
  width : Int
deriving DecidableEq, Repr

/-- What decides at each place. Pinned rules come before the built-in forms, in their order. -/
structure RuleSet where
  jsonMode : Bool := false
  pinned : List PinnedRule := []
deriving DecidableEq, Repr

/-- How a walk ends. -/
inductive WalkEnd where
  /-- No token is left. The cursor is past the list where the last rule took more than there was. -/
  | finished (cursor : Nat)
  /-- The rule for a node of this kind took no token. -/
  | stalled (cursor : Nat) (kind : NodeKind)
deriving DecidableEq, Repr

def WalkEnd.cursor : WalkEnd → Nat
  | finished cursor => cursor
  | stalled cursor _ => cursor

/-- The constructs met on a walk, in order, and how it ended. -/
structure Walk where
  constructs : List Construct
  ending : WalkEnd
deriving DecidableEq, Repr

namespace RuleSet

/-- The construct of the pinned rule that decides at an index, if there is one. -/
def pinnedConstruct? (rules : RuleSet) (index : Nat) : Option Construct :=
  (rules.pinned.find? (·.index == index)).map fun rule =>
    { node := { kind := rule.kind }, width := rule.width }

/-- The construct at an index, given the token before it and the tokens from it on. Only where no
token is left and no rule is pinned there is none. -/
def construct? (rules : RuleSet) (previous : Option Token) (index : Nat) (window : List Token) :
    Option Construct :=
  match rules.pinnedConstruct? index with
  | some construct => some construct
  | none => (Form.ofWindow? rules.jsonMode window).map (·.construct previous window)

/-- Walk over the tokens from an index on, given the token before it. -/
def walk (rules : RuleSet) (previous : Option Token) (index : Nat) : List Token → Walk
  | [] => ⟨[], .finished index⟩
  | token :: more =>
      match rules.construct? previous index (token :: more) with
      | none => ⟨[], .finished index⟩
      | some construct =>
          if construct.width < 1 then ⟨[], .stalled index construct.node.kind⟩
          else
            let beyond := construct.width.toNat - 1
            let further :=
              rules.walk ((token :: more)[beyond]?) (index + beyond + 1) (more.drop beyond)
            { further with constructs := construct :: further.constructs }
  termination_by window => window.length
  decreasing_by
    rw [List.length_drop, List.length_cons]
    omega

/-- Where a token is left there is always a construct. -/
theorem construct?_cons_ne_none (rules : RuleSet) (previous : Option Token) (index : Nat)
    (token : Token) (more : List Token) :
    rules.construct? previous index (token :: more) ≠ none := by
  unfold construct?
  split
  · simp
  · have hOther : ∃ form ∈ Form.all,
        (form.enabled rules.jsonMode && form.trigger.fits (token :: more)) = true :=
      ⟨.other, Form.mem_all _, by
        simp [Form.enabled, Form.trigger, Pattern.fits, PatternElement.admits]⟩
    simp only [ne_eq, Option.map_eq_none_iff]
    intro hNone
    obtain ⟨form, hMem, hFits⟩ := hOther
    exact absurd hFits (by simpa using List.find?_eq_none.mp hNone form hMem)

end RuleSet

end FlatSyntax
