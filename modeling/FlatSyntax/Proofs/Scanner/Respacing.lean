import FlatSyntax.Proofs.Lexeme.Boundary
import FlatSyntax.Proofs.Scanner.Layout

/-! Other gaps between the same tokens. Where the gaps of a text that scans are replaced by others,
the text scans again, and to the same kinds and values. -/
namespace FlatSyntax

/-- The next tile has to stand directly behind the previous one: generic arguments behind their
word, a square group behind its marker. -/
def Tile.Joins (previous next : Tile) : Prop :=
  previous.token.kind.isWord = true ∧ next.token.kind = .angle ∨
    previous.token.kind = .staticMarker ∧ next.token.kind = .square

instance (previous next : Tile) : Decidable (previous.Joins next) :=
  inferInstanceAs (Decidable (_ ∨ _))

/-- `Respaced previous tiles text` says that the text is made of the spellings of the tiles, in
order and behind the tile `previous` if there is one, with gaps that need not be those of the tiles.
There is a gap between any two tiles that are not joined, and what takes the rest of its line has
its line ended first. -/
inductive Respaced : Option Tile → List Tile → List Char → Prop where
  | ended {previous : Option Tile} {gap : List Char} (hGap : ∀ c ∈ gap, Cursor.isGap c = true)
      (hLine : ∀ tile ∈ previous, tile.token.kind.TakesLine tile.raw → ∀ c ∈ gap.head?, c = '\n') :
      Respaced previous [] gap
  | first {tile : Tile} {tiles : List Tile} {gap text : List Char}
      (hGap : ∀ c ∈ gap, Cursor.isGap c = true) (hMore : Respaced (some tile) tiles text) :
      Respaced none (tile :: tiles) (gap ++ tile.raw ++ text)
  | joined {previous tile : Tile} {tiles : List Tile} {text : List Char}
      (hJoins : previous.Joins tile) (hMore : Respaced (some tile) tiles text) :
      Respaced (some previous) (tile :: tiles) (tile.raw ++ text)
  | spaced {previous tile : Tile} {tiles : List Tile} {c : Char} {gap text : List Char}
      (hApart : ¬ previous.Joins tile) (hGap : ∀ d ∈ c :: gap, Cursor.isGap d = true)
      (hLine : previous.token.kind.TakesLine previous.raw → c = '\n')
      (hMore : Respaced (some tile) tiles text) :
      Respaced (some previous) (tile :: tiles) (c :: gap ++ tile.raw ++ text)

namespace Tile.IsRead

variable {tile : Tile} {afterWord : Bool} {after : List Char}

/-- A tile is read again before every boundary, behind a word just where it needs one. -/
theorem bounded (hRead : tile.IsRead afterWord after) {beyond : List Char}
    (hBeyond : tile.token.kind.Bounded tile.raw beyond) :
    tile.IsRead (tile.token.kind == .angle) beyond := by
  obtain ⟨lexeme, hRaw, hKind, hValue, hStarts⟩ := hRead
  rw [hRaw, hKind] at hBeyond
  rw [hKind]
  exact ⟨lexeme, hRaw, hKind, hValue, hStarts.bounded hBeyond⟩

theorem head?_append (hRead : tile.IsRead afterWord after) (beyond : List Char) :
    (tile.raw ++ beyond).head? = (tile.raw ++ after).head? := by
  obtain ⟨lexeme, hRaw, -⟩ := hRead
  rw [hRaw]
  rfl

/-- A gap that is left out just where tiles are joined has a tile behind a word just where the tile
needs one. -/
theorem behind_word {previous : Option Tile} {skipped : Bool}
    (hRead : tile.IsRead (skipped && previous.any (·.token.kind.isWord)) after) {gap : List Char}
    (hJoined : ∀ before ∈ previous, gap = [] ↔ before.Joins tile) :
    (tile.token.kind == .angle) = (gap.isEmpty && previous.any (·.token.kind.isWord)) := by
  by_cases hAngle : tile.token.kind = .angle
  · have hBehind := hRead.afterWord_of_angle hAngle
    rw [Bool.and_eq_true] at hBehind
    obtain ⟨before, hBefore, hWord⟩ := (Option.any_eq_true _ _).mp hBehind.2
    have hEmpty : gap = [] := (hJoined before hBefore).mpr (Or.inl ⟨hWord, hAngle⟩)
    rw [hAngle, hEmpty, hBehind.2]
    rfl
  · have hApart : (gap.isEmpty && previous.any (·.token.kind.isWord)) = false := by
      cases previous with
      | none => exact Bool.and_false _
      | some before =>
          rw [Bool.and_eq_false_iff]
          by_cases hEmpty : gap = []
          · rcases (hJoined before rfl).mp hEmpty with ⟨-, hKind⟩ | ⟨hMarker, -⟩
            · exact absurd hKind hAngle
            · refine Or.inr ?_
              rw [Option.any_some, hMarker]
              rfl
          · exact Or.inl (List.isEmpty_eq_false_iff.mpr hEmpty)
    rw [hApart]
    exact beq_eq_false_iff_ne.mpr hAngle

end Tile.IsRead

namespace Respaced

variable {previous : Option Tile} {tile : Tile} {tiles : List Tile} {text : List Char}

/-- What follows a tile in a respaced text is a boundary for it. -/
theorem bounded {source before after : List Char} {first : Int} {afterWord : Bool}
    (hRespaced : Respaced (some tile) tiles text)
    (hLaid : Laid source first before afterWord tiles) (hSource : source = before ++ after)
    (hStops : tile.token.kind.Stops tile.raw after) : tile.token.kind.Bounded tile.raw text := by
  have hGroup (hMarker : tile.token.kind = .staticMarker) :
      ∃ next more, tiles = next :: more ∧ next.token.kind = .square := by
    rw [hMarker] at hStops
    obtain ⟨rest, rfl⟩ := List.head?_eq_some_iff.mp hStops
    obtain ⟨next, more, hNext, hSquare, -⟩ := hLaid.exists_square hSource
    exact ⟨next, more, hNext, hSquare⟩
  cases hRespaced with
  | ended hGap hLine =>
      have hMarker : tile.token.kind ≠ .staticMarker := by
        intro hMarker
        obtain ⟨next, more, hNext, -⟩ := hGroup hMarker
        cases hNext
      cases text with
      | nil => exact .ended hMarker
      | cons c rest =>
          exact .gap hMarker (hGap c List.mem_cons_self) fun hTakes => hLine tile rfl hTakes c rfl
  | @joined _ next more rest hJoins hMore =>
      have hSpells := hLaid.spells_head
      rcases hJoins with ⟨hWord, hAngle⟩ | ⟨hMarker, hSquare⟩
      · rw [hAngle] at hSpells
        rw [hSpells]
        exact .arguments hWord
      · rw [hSquare] at hSpells
        rw [hSpells]
        exact .group hMarker
  | @spaced _ next more c gap rest hApart hGap hLine hMore =>
      have hMarker : tile.token.kind ≠ .staticMarker := by
        intro hMarker
        obtain ⟨_, _, hNext, hSquare⟩ := hGroup hMarker
        obtain ⟨rfl, rfl⟩ := List.cons.inj hNext
        exact hApart (Or.inr ⟨hMarker, hSquare⟩)
      exact .gap hMarker (hGap c List.mem_cons_self) hLine

/-- A respaced text starts with a gap and its first tile, without a gap just where the tile is
joined to the one before. -/
theorem exists_gap (hRespaced : Respaced previous (tile :: tiles) text) :
    ∃ gap rest, text = gap ++ tile.raw ++ rest ∧ (∀ c ∈ gap, Cursor.isGap c = true) ∧
      (∀ before ∈ previous, gap = [] ↔ before.Joins tile) ∧ Respaced (some tile) tiles rest := by
  cases hRespaced with
  | @first _ _ gap rest hGap hMore => exact ⟨gap, rest, rfl, hGap, nofun, hMore⟩
  | @joined _ _ _ rest hJoins hMore =>
      refine ⟨[], rest, rfl, List.forall_mem_nil _, ?_, hMore⟩
      rintro _ ⟨⟩
      exact iff_of_true rfl hJoins
  | @spaced _ _ _ c gap rest hApart hGap _ hMore =>
      refine ⟨c :: gap, rest, rfl, hGap, ?_, hMore⟩
      rintro _ ⟨⟩
      exact iff_of_false (List.cons_ne_nil c gap) hApart

end Respaced

/-- What a token is apart from its place. -/
def Token.content (token : Token) : TokenKind × String :=
  (token.kind, token.value)

/-- A respaced text is laid out with the same tokens. -/
theorem Laid.respace {source before : List Char} {first : Int} {afterWord : Bool}
    {tiles : List Tile} (hLaid : Laid source first before afterWord tiles)
    {previous : Option Tile} (hWord : afterWord = previous.any (·.token.kind.isWord))
    {rest : List Char} (hRespaced : Respaced previous tiles rest) {text front : List Char}
    (hText : text = front ++ rest) (line : Int) :
    ∃ moved, Laid text line front afterWord moved ∧
      moved.map (·.token.content) = tiles.map (·.token.content) := by
  induction hLaid generalizing previous rest front with
  | ended _ _ =>
      cases hRespaced with
      | ended hGap _ => exact ⟨[], .ended hText hGap, rfl⟩
  | @tile before after afterWord tile tiles hSource hGap hFirst hRead hPosition hMore ih =>
      obtain ⟨gap, more, rfl, hNewGap, hJoined, hRespacedMore⟩ := hRespaced.exists_gap
      have hBounded : tile.token.kind.Bounded tile.raw more :=
        hRespacedMore.bounded hMore hSource hRead.wellSpelled.2
      have hReadAgain : tile.IsRead (gap.isEmpty && afterWord) more := by
        rw [hWord] at hRead ⊢
        rw [← hRead.behind_word hJoined]
        exact hRead.bounded hBounded
      let place := Text.positionAt text line (front ++ gap).length
      let moved : Tile :=
        { gap, raw := tile.raw
          token := { tile.token with line := place.line, column := place.column } }
      have hWhole : text = front ++ gap ++ tile.raw ++ more := by
        rw [hText, ← List.append_assoc, ← List.append_assoc]
      obtain ⟨further, hFurther, hSame⟩ := ih rfl hRespacedMore hWhole
      have hNotGap : ∀ c ∈ (tile.raw ++ more).head?, Cursor.isGap c = false := by
        rw [hRead.head?_append]
        exact hFirst
      refine ⟨moved :: further, .tile hWhole hNewGap hNotGap hReadAgain rfl hFurther, ?_⟩
      rw [List.map_cons, List.map_cons, hSame]
      rfl

/-- Which gaps stand between the tokens makes no difference. Where a text scans without a problem,
and the spellings of its tokens are put together again with other gaps, the new text scans without
a problem to the same kinds and values. There has to be some gap between tokens that are not joined
and none between those that are, and the line of a line comment or a directive has to end first. -/
theorem respaced_text_has_same_tokens {source file : String} {line : Int}
    (hClean : (scanSource source file line).problem = none) {text : String}
    (hRespaced : Respaced none ((Cursor.start source.toList line).tiles file) text.toList)
    (file' : String) (line' : Int) :
    (scanSource text file' line').problem = none ∧
      (scanSource text file' line').tokens.map Token.content =
        (scanSource source file line).tokens.map Token.content := by
  have hText : text.toList = [] ++ text.toList := rfl
  obtain ⟨moved, hMoved, hContent⟩ := (laid_scanSource hClean).respace rfl hRespaced hText line'
  have hNew : (Cursor.start text.toList line').Tracks text.toList line' :=
    Cursor.tracks_start text.toList line'
  obtain ⟨hProblem, hTokens⟩ := hNew.scan_of_laid rfl hMoved file'
  refine ⟨hProblem, ?_⟩
  calc
    (scanSource text file' line').tokens.map Token.content
      = moved.map (·.token.content) := by rw [scanSource, hTokens, List.map_map]; rfl
    _ = ((Cursor.start source.toList line).tiles file).map (·.token.content) := hContent
    _ = (scanSource source file line).tokens.map Token.content := by
        rw [scanSource, ← Cursor.tokens_tiles, List.map_map]
        rfl

theorem respaced_text_has_same_tokens_marker :
    ((scanSource "v<t> $[1]//n" "" 1).problem = none ∧
      Respaced none ((Cursor.start "v<t> $[1]//n".toList 1).tiles "")
        "\tv<t>\n$[1] //n\n ".toList) ∧
      (scanSource "\tv<t>\n$[1] //n\n " "" 1).problem = none ∧
      (scanSource "\tv<t>\n$[1] //n\n " "" 1).tokens.map Token.content =
        (scanSource "v<t> $[1]//n" "" 1).tokens.map Token.content := by
  let word : Tile := ⟨[], ['v'], ⟨.identifier, "v", 1, 1⟩⟩
  let arguments : Tile := ⟨[], ['<', 't', '>'], ⟨.angle, "t", 1, 2⟩⟩
  let marker : Tile := ⟨[' '], ['$'], ⟨.staticMarker, "$", 1, 6⟩⟩
  let group : Tile := ⟨[], ['[', '1', ']'], ⟨.square, "1", 1, 7⟩⟩
  let comment : Tile := ⟨[], ['/', '/', 'n'], ⟨.comment, "n", 1, 10⟩⟩
  have hClean : (scanSource "v<t> $[1]//n" "" 1).problem = none := by decide +kernel
  have hTiles : (Cursor.start "v<t> $[1]//n".toList 1).tiles "" =
      [word, arguments, marker, group, comment] := by decide +kernel
  have hEnd : Respaced (some comment) [] ['\n', ' '] :=
    .ended (List.all_eq_true.mp rfl) fun _ _ _ => by simp
  have hComment : Respaced (some group) [comment] ([' '] ++ comment.raw ++ ['\n', ' ']) :=
    .spaced (by decide) (List.all_eq_true.mp rfl) (by decide) hEnd
  have hGroup : Respaced (some marker) [group, comment] _ := .joined (by decide) hComment
  have hMarker : Respaced (some arguments) [marker, group, comment] (['\n'] ++ marker.raw ++ _) :=
    .spaced (by decide) (List.all_eq_true.mp rfl) (by decide) hGroup
  have hArguments : Respaced (some word) [arguments, marker, group, comment] _ :=
    .joined (by decide) hMarker
  have hWord : Respaced none [word, arguments, marker, group, comment] (['\t'] ++ word.raw ++ _) :=
    .first (List.all_eq_true.mp rfl) hArguments
  have hRespaced : Respaced none ((Cursor.start "v<t> $[1]//n".toList 1).tiles "")
      "\tv<t>\n$[1] //n\n ".toList := by
    rw [hTiles]
    exact hWord
  exact ⟨⟨hClean, hRespaced⟩, respaced_text_has_same_tokens hClean hRespaced "" 1⟩

end FlatSyntax
