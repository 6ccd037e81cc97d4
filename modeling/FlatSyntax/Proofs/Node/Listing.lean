import FlatSyntax.Node
import FlatSyntax.Proofs.Text.Quoted
import FlatSyntax.Proofs.Text.Terminal
import Mathlib

/-! Listings of nodes as lines of text. Every line has printed characters only, and a token's line
tells the token and where it ends, so the lines of a listing tell its nodes. Color adds terminal
sequences to the headings and nothing else. -/
namespace FlatSyntax

namespace Text

/-- A text up to the first character of some kind is told by the whole text. -/
theorem append_cons_inj {before before' after after' : List Char} {c : Char} (hBefore : c ∉ before)
    (hBefore' : c ∉ before') (hSame : before ++ c :: after = before' ++ c :: after') :
    before = before' ∧ after = after' := by
  have hPieces := congrArg (List.splitOn c) hSame
  rw [List.splitOn_append_cons_self_of_not_mem hBefore,
    List.splitOn_append_cons_self_of_not_mem hBefore'] at hPieces
  obtain rfl : before = before' := (List.cons.inj hPieces).1
  exact ⟨rfl, (List.cons.inj (List.append_cancel_left hSame)).2⟩

/-- Every character of a text has a printed form. -/
def IsPrinted (text : String) : Prop := ∀ c ∈ text.toList, isPrintable c = true

theorem IsPrinted.append {text text' : String} (hText : IsPrinted text)
    (hText' : IsPrinted text') : IsPrinted (text ++ text') := by
  intro c hMem
  rw [String.toList_append, List.mem_append] at hMem
  exact hMem.elim (hText c) (hText' c)

theorem IsPrinted.notMem {text : String} (hText : IsPrinted text) {c : Char}
    (hHidden : isPrintable c = false) : c ∉ text.toList := by
  intro hMem
  rw [hText c hMem] at hHidden
  cases hHidden

/-- The letters, digits and signs of the seven-bit code have a printed form. -/
theorem isPrintable_of_ascii {c : Char} (hFirst : 0x20 ≤ c.toNat) (hLast : c.toNat < 0x7F) :
    isPrintable c = true := by
  have hTable : unprintableRanges.covers c.toNat = false := by
    unfold unprintableRanges unprintableLow
    rw [List.append_assoc, List.append_assoc, List.append_assoc, List.cons_append,
      List.cons_append, CodeRanges.covers, if_neg (by omega), CodeRanges.covers,
      if_pos (by omega)]
    exact decide_eq_false (by omega)
  rw [isPrintable, hTable]
  rfl

theorem isPrinted_of_ascii {text : String}
    (hText : text.toList.all (fun c => decide (0x20 ≤ c.toNat ∧ c.toNat < 0x7F)) = true) :
    IsPrinted text := by
  intro c hMem
  obtain ⟨hFirst, hLast⟩ := of_decide_eq_true (List.all_eq_true.mp hText c hMem)
  exact isPrintable_of_ascii hFirst hLast

theorem isPrinted_quoted (text : String) : IsPrinted (quoted text) := by
  intro c hMem
  rw [quoted, String.toList_ofList] at hMem
  exact isPrintable_of_mem_quotedChars hMem

/-- A numeral is written with digits and perhaps a sign before them. -/
theorem numeral_chars {number : Int} {c : Char} (hMem : c ∈ (toString number).toList) :
    c = '-' ∨ 0x30 ≤ c.toNat ∧ c.toNat ≤ 0x39 := by
  have hDigits (natural : Nat) (hMem : c ∈ natural.repr.toList) :
      0x30 ≤ c.toNat ∧ c.toNat ≤ 0x39 := by
    rw [Nat.toList_repr] at hMem
    have hDigit := Nat.isDigit_of_mem_toDigits (by decide) (Nat.le_refl 10) hMem
    simp only [Char.isDigit, Bool.and_eq_true, decide_eq_true_eq, ge_iff_le,
      UInt32.le_iff_toNat_le] at hDigit
    exact hDigit
  rw [Int.toString_eq_repr, Int.repr_eq_if] at hMem
  split at hMem
  · exact Or.inr (hDigits _ hMem)
  · rw [String.toList_append, List.mem_append] at hMem
    exact hMem.imp (by simp) (hDigits _)

theorem isPrinted_numeral (number : Int) : IsPrinted (toString number) := by
  intro c hMem
  rcases numeral_chars hMem with rfl | ⟨hFirst, hLast⟩
  · exact isPrintable_of_ascii (by decide) (by decide)
  · exact isPrintable_of_ascii (by omega) (by omega)

end Text

theorem TokenKind.isPrinted_name (kind : TokenKind) : Text.IsPrinted kind.name :=
  Text.isPrinted_of_ascii (by cases kind <;> decide)

theorem TokenKind.comma_notMem_name (kind : TokenKind) : ',' ∉ kind.name.toList := by
  cases kind <;> decide

theorem TokenKind.name_injective : Function.Injective name := by
  intro kind kind' hName
  have hFound := congrArg ofName? hName
  rw [ofName?_name, ofName?_name] at hFound
  exact Option.some.inj hFound

theorem NodeKind.isPrinted_name (kind : NodeKind) : Text.IsPrinted kind.name :=
  Text.isPrinted_of_ascii (by cases kind <;> decide)

theorem NodeKind.name_injective : Function.Injective name := by
  intro kind kind' hName
  have hFound := congrArg ofName? hName
  rw [ofName?_name, ofName?_name] at hFound
  exact Option.some.inj hFound

namespace Token

/-- What a token is shown as, part by part. -/
theorem toList_render (token : Token) :
    token.render.toList =
      "Token(".toList ++ (token.kind.name.toList ++ ',' :: ' ' ::
        (Text.quotedChars token.value.toList ++ ',' :: ' ' ::
          ((toString token.line).toList ++ ':' :: ((toString token.column).toList ++ [')'])))) := by
  simp [render, Text.quoted, Position.text, position]

theorem isPrinted_render (token : Token) : Text.IsPrinted token.render := by
  have hOpening : Text.IsPrinted "Token(" := Text.isPrinted_of_ascii (by decide)
  have hComma : Text.IsPrinted ", " := Text.isPrinted_of_ascii (by decide)
  have hColon : Text.IsPrinted ":" := Text.isPrinted_of_ascii (by decide)
  have hClosing : Text.IsPrinted ")" := Text.isPrinted_of_ascii (by decide)
  have hPosition : Text.IsPrinted token.position.text :=
    ((Text.isPrinted_numeral _).append hColon).append (Text.isPrinted_numeral _)
  have hKind := hOpening.append token.kind.isPrinted_name
  have hValue := (hKind.append hComma).append (Text.isPrinted_quoted token.value)
  exact ((hValue.append hComma).append hPosition).append hClosing

/-- What a token is shown as tells the token and where it ends. -/
theorem render_append_inj {token token' : Token} {after after' : List Char}
    (hSame : token.render.toList ++ after = token'.render.toList ++ after') :
    token = token' ∧ after = after' := by
  have hNumeral (c : Char) (hSign : c ≠ '-') (hOutside : c.toNat < 0x30 ∨ 0x39 < c.toNat)
      (number : Int) : c ∉ (toString number).toList := by
    intro hMem
    rcases Text.numeral_chars hMem with rfl | hDigit
    · exact hSign rfl
    · omega
  simp only [toList_render, List.append_assoc, List.cons_append, List.nil_append] at hSame
  obtain ⟨hKind, hSame⟩ := Text.append_cons_inj token.kind.comma_notMem_name
    token'.kind.comma_notMem_name (List.append_cancel_left hSame)
  obtain ⟨hValue, hSame⟩ := Text.quotedChars_append_inj (List.cons.inj hSame).2
  have hColon := hNumeral ':' (by decide) (by decide)
  obtain ⟨hLine, hSame⟩ := Text.append_cons_inj (hColon _) (hColon _)
    (List.cons.inj (List.cons.inj hSame).2).2
  have hParen := hNumeral ')' (by decide) (by decide)
  obtain ⟨hColumn, hAfter⟩ := Text.append_cons_inj (hParen _) (hParen _) hSame
  refine ⟨?_, hAfter⟩
  cases token
  cases token'
  simp only [String.toList_inj, Int.toString_eq_repr] at hKind hValue hLine hColumn
  rw [Token.mk.injEq]
  exact ⟨TokenKind.name_injective hKind, hValue, Int.repr_injective hLine,
    Int.repr_injective hColumn⟩

end Token

namespace Node

/-- The first line of a node's listing. -/
def heading (color : Bool) (kind : NodeKind) : String :=
  (if color then Text.Terminal.cyan (kind.name ++ ":") else kind.name ++ ":") ++ " ["

theorem listing_eq (color : Bool) (node : Node) :
    node.listing color = heading color node.kind :: (tokenLines node.tokens ++ ["]"]) :=
  rfl

theorem tokenLines_cons (token : Token) (more : List Token) :
    tokenLines (token :: more) =
      ("    " ++ token.render ++ if more = [] then "" else ",") :: tokenLines more := by
  cases more with
  | nil => simp [tokenLines]
  | cons => simp [tokenLines]

theorem length_listing (color : Bool) (node : Node) :
    (node.listing color).length = node.tokens.length + 2 := by
  have hTokens (tokens : List Token) : (tokenLines tokens).length = tokens.length := by
    induction tokens with
    | nil => rfl
    | cons token more ih => rw [tokenLines_cons, List.length_cons, List.length_cons, ih]
  rw [listing_eq, List.length_cons, List.length_append, hTokens, List.length_singleton]

theorem isPrinted_of_mem_tokenLines {tokens : List Token} :
    ∀ line ∈ tokenLines tokens, Text.IsPrinted line := by
  induction tokens with
  | nil => exact List.forall_mem_nil _
  | cons token more ih =>
      rw [tokenLines_cons]
      refine List.forall_mem_cons.mpr ⟨?_, ih⟩
      have hIndent : Text.IsPrinted "    " := Text.isPrinted_of_ascii (by decide)
      refine (hIndent.append token.isPrinted_render).append (Text.isPrinted_of_ascii ?_)
      split <;> decide

theorem isPrinted_title (kind : NodeKind) : Text.IsPrinted (kind.name ++ ":") :=
  kind.isPrinted_name.append (Text.isPrinted_of_ascii (by decide))

theorem isPrinted_heading (kind : NodeKind) : Text.IsPrinted (heading false kind) :=
  (isPrinted_title kind).append (Text.isPrinted_of_ascii (by decide))

/-- Without color every line of a listing has printed characters only. -/
theorem isPrinted_of_mem_listing {node : Node} :
    ∀ line ∈ node.listing false, Text.IsPrinted line := by
  have hEnd : Text.IsPrinted "]" := Text.isPrinted_of_ascii (by decide)
  rw [listing_eq]
  refine List.forall_mem_cons.mpr ⟨isPrinted_heading node.kind, fun line hMem => ?_⟩
  rcases List.mem_append.mp hMem with hToken | hLast
  · exact isPrinted_of_mem_tokenLines line hToken
  · rw [List.mem_singleton.mp hLast]
    exact hEnd

/-- The lines of tokens tell the tokens and end at the closing line. -/
theorem tokenLines_append_inj {tokens tokens' : List Token} {after after' : List String}
    (hSame : tokenLines tokens ++ "]" :: after = tokenLines tokens' ++ "]" :: after') :
    tokens = tokens' ∧ after = after' := by
  have hIndented (text : String) : "    " ++ text ≠ "]" := by
    intro hLine
    have hFirst := congrArg (List.head? ∘ String.toList) hLine
    simp at hFirst
  induction tokens generalizing tokens' with
  | nil =>
      cases tokens' with
      | nil => exact ⟨rfl, (List.cons.inj hSame).2⟩
      | cons token' more' =>
          rw [tokenLines_cons, String.append_assoc] at hSame
          exact absurd (List.cons.inj hSame).1.symm (hIndented _)
  | cons token more ih =>
      cases tokens' with
      | nil =>
          rw [tokenLines_cons, String.append_assoc] at hSame
          exact absurd (List.cons.inj hSame).1 (hIndented _)
      | cons token' more' =>
          rw [tokenLines_cons, tokenLines_cons] at hSame
          obtain ⟨hLine, hMore⟩ := List.cons.inj hSame
          have hChars := congrArg String.toList hLine
          simp only [String.append_assoc, String.toList_append] at hChars
          obtain ⟨rfl, -⟩ := Token.render_append_inj (List.append_cancel_left hChars)
          obtain ⟨rfl, rfl⟩ := ih hMore
          exact ⟨rfl, rfl⟩

/-- The lines of nodes tell the nodes. -/
theorem flatMap_listing_injective :
    Function.Injective fun nodes : List Node => nodes.flatMap (listing false) := by
  intro nodes nodes' hSame
  induction nodes generalizing nodes' with
  | nil =>
      cases nodes' with
      | nil => rfl
      | cons node' more' => cases hSame
  | cons node more ih =>
      cases nodes' with
      | nil => cases hSame
      | cons node' more' =>
          simp only [List.flatMap_cons, listing_eq, List.cons_append, List.append_assoc,
            List.nil_append, List.cons.injEq] at hSame
          obtain ⟨hHeading, hLines⟩ := hSame
          obtain ⟨hTokens, hMore⟩ := tokenLines_append_inj hLines
          have hKind : node.kind = node'.kind := by
            apply NodeKind.name_injective
            simpa [heading] using hHeading
          cases node
          cases node'
          obtain rfl := ih hMore
          simp_all

/-- The listing of nodes is that of their lines. -/
theorem dump_eq (color : Bool) (nodes : List Node) :
    dump color nodes = "\n".intercalate (nodes.flatMap (listing color)) := by
  have hListing (node : Node) : node.listing color ≠ [] := List.cons_ne_nil _ _
  unfold dump
  induction nodes with
  | nil => rfl
  | cons node more ih =>
      cases more with
      | nil => simp [render]
      | cons second more =>
          have hMore : (second :: more).flatMap (listing color) ≠ [] := by
            simp [hListing]
          rw [List.flatMap_cons, String.intercalate_append_of_ne_nil (hListing node) hMore, ← ih,
            List.map_cons, List.map_cons, String.intercalate_cons_cons]
          rfl

theorem lineFeed_notMem_listing {color : Bool} {node : Node} :
    ∀ line ∈ node.listing color, '\n' ∉ line.toList := by
  have hHidden : Text.isPrintable '\n' = false := by decide
  have hHeading (kind : NodeKind) : '\n' ∉ (heading true kind).toList := by
    have hTitle := (isPrinted_title kind).notMem hHidden
    simpa [heading, Text.Terminal.toList_cyan, Text.Terminal.escape] using hTitle
  cases color with
  | false => exact fun line hMem => (isPrinted_of_mem_listing line hMem).notMem hHidden
  | true =>
      refine List.forall_mem_cons.mpr ⟨hHeading node.kind, fun line hMem => ?_⟩
      have hPlain : line ∈ node.listing false := List.mem_cons_of_mem _ hMem
      exact (isPrinted_of_mem_listing line hPlain).notMem hHidden

/-- A listing is cut into its lines at the line feeds. -/
theorem splitOn_dump {color : Bool} {nodes : List Node} (hNodes : nodes ≠ []) :
    (dump color nodes).toList.splitOn '\n' =
      (nodes.flatMap (listing color)).map String.toList := by
  rw [dump_eq, String.toList_intercalate]
  apply List.splitOn_intercalate '\n'
  · simp only [List.forall_mem_map, List.forall_mem_flatMap]
    exact fun node _ => lineFeed_notMem_listing
  · obtain ⟨node, more, rfl⟩ := List.exists_cons_of_ne_nil hNodes
    exact List.cons_ne_nil _ _

/-- A listing has a line for each token and two more for each node. -/
theorem length_splitOn_dump {color : Bool} {nodes : List Node} (hNodes : nodes ≠ []) :
    ((dump color nodes).toList.splitOn '\n').length =
      (nodes.map fun node => node.tokens.length + 2).sum := by
  simp only [splitOn_dump hNodes, List.length_map, List.length_flatMap, length_listing]

theorem dump_eq_empty_iff {color : Bool} {nodes : List Node} :
    dump color nodes = "" ↔ nodes = [] := by
  constructor
  · intro hEmpty
    cases nodes with
    | nil => rfl
    | cons node more =>
        have hLines : ((dump color (node :: more)).toList.splitOn '\n').length = _ :=
          length_splitOn_dump (List.cons_ne_nil node more)
        rw [hEmpty, List.map_cons, List.sum_cons] at hLines
        simp at hLines
        omega
  · rintro rfl
    rfl

theorem dump_injective : Function.Injective (dump false) := by
  intro nodes nodes' hSame
  by_cases hNodes : nodes = []
  · rw [hNodes] at hSame ⊢
    exact (dump_eq_empty_iff.mp (hSame.symm.trans (dump_eq_empty_iff.mpr rfl))).symm
  · have hNodes' : nodes' ≠ [] := by
      rintro rfl
      exact hNodes (dump_eq_empty_iff.mp (hSame.trans (dump_eq_empty_iff.mpr rfl)))
    have hLines := congrArg (fun shown : String => shown.toList.splitOn '\n') hSame
    simp only [splitOn_dump hNodes, splitOn_dump hNodes'] at hLines
    exact flatMap_listing_injective ((List.map_inj_right fun _ _ => String.toList_inj.mp).mp hLines)

/-- Nothing is removed from a line of printed characters. -/
theorem clears_of_isPrinted {text : String} (hText : Text.IsPrinted text) :
    Text.Terminal.Clears text.toList text.toList :=
  Text.Terminal.clears_of_notMem (hText.notMem (by decide))

theorem clears_heading (kind : NodeKind) :
    Text.Terminal.Clears (heading true kind).toList (heading false kind).toList := by
  have hEnd : Text.IsPrinted " [" := Text.isPrinted_of_ascii (by decide)
  have hStyled := Text.Terminal.clears_cyan
    ((isPrinted_title kind).notMem (show Text.isPrintable Text.Terminal.escape = false by decide))
  have hWhole := hStyled.append (clears_of_isPrinted hEnd)
  rw [← String.toList_append, ← String.toList_append] at hWhole
  exact hWhole

theorem clears_render (node : Node) :
    Text.Terminal.Clears (node.render true).toList (node.render false).toList := by
  have hFeed : Text.Terminal.escape ∉ ['\n'] := by decide
  have hLines : tokenLines node.tokens ++ ["]"] ≠ [] := by simp
  have hMore : Text.Terminal.Clears
      ("\n".intercalate (tokenLines node.tokens ++ ["]"])).toList
      ("\n".intercalate (tokenLines node.tokens ++ ["]"])).toList := by
    rw [String.toList_intercalate]
    refine Text.Terminal.Clears.intercalate hFeed fun line hMem => ?_
    exact clears_of_isPrinted (isPrinted_of_mem_listing line (List.mem_cons_of_mem _ hMem))
  have hWhole := ((clears_heading node.kind).append
    (Text.Terminal.clears_of_notMem hFeed)).append hMore
  simp only [render, listing_eq, String.intercalate_cons_of_ne_nil hLines, String.toList_append]
  exact hWhole

/-- Coloring the headings is undone when terminal sequences are removed. -/
theorem strip_dump (nodes : List Node) :
    Text.Terminal.strip (dump true nodes).toList = (dump false nodes).toList := by
  have hNodes : Text.Terminal.Clears
      (['\n'].intercalate (nodes.map fun node => (node.render true).toList))
      (['\n'].intercalate (nodes.map fun node => (node.render false).toList)) :=
    Text.Terminal.Clears.intercalate (by decide) fun node _ => clears_render node
  have hDump (color : Bool) : (dump color nodes).toList =
      ['\n'].intercalate (nodes.map fun node => (node.render color).toList) := by
    rw [dump, String.toList_intercalate, List.map_map]
    rfl
  rw [hDump, hDump]
  exact hNodes.strip_eq

end Node

/-- A listing is faithful. Without color no two lists of nodes have the same one; a listing of any
nodes at all has a line for each token and two more for each node; and removing the terminal
sequences from a colored listing gives the listing without color. -/
theorem listing_is_faithful :
    Function.Injective (Node.dump false) ∧
      (∀ color nodes, Node.dump color nodes ≠ "" →
        ((Node.dump color nodes).toList.splitOn '\n').length =
          (nodes.map fun node => node.tokens.length + 2).sum) ∧
      ∀ nodes, Text.Terminal.strip (Node.dump true nodes).toList =
        (Node.dump false nodes).toList := by
  refine ⟨Node.dump_injective, fun color nodes hShown => ?_, Node.strip_dump⟩
  exact Node.length_splitOn_dump fun hNone => hShown (Node.dump_eq_empty_iff.mpr hNone)

/-- A value that imitates the listing, with a line feed and a terminal sequence in it. -/
theorem listing_is_faithful_imitation :
    let value := "x', 1:1)\n]\x1b[0m"
    let nodes : List Node := [⟨.reference, [⟨.comment, value, 0, -1⟩]⟩, ⟨.other, []⟩]
    Node.dump true nodes ≠ "" ∧
      ((Node.dump true nodes).toList.splitOn '\n').length = 5 ∧
      Text.Terminal.strip (Node.dump true nodes).toList = (Node.dump false nodes).toList := by
  intro value nodes
  have hShown : Node.dump true nodes ≠ "" :=
    fun hEmpty => List.cons_ne_nil _ _ (Node.dump_eq_empty_iff.mp hEmpty)
  exact ⟨hShown, listing_is_faithful.2.1 true nodes hShown, listing_is_faithful.2.2 nodes⟩

end FlatSyntax
