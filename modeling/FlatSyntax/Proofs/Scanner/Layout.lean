import FlatSyntax.Proofs.Lexeme.Boundary
import FlatSyntax.Proofs.Scanner.Resumption
import Mathlib.Data.List.TakeWhile

/-! Texts laid out as tiles. A layout says of every token where it stands and that it is read there;
a text has a layout exactly where it scans without a problem, and then the tokens of the scan are
those of the layout. -/
namespace FlatSyntax

deriving instance DecidableEq for Tile

/-- Before the text `after` the tile's token is read off its spelling. -/
def Tile.IsRead (tile : Tile) (afterWord : Bool) (after : List Char) : Prop :=
  ∃ lexeme : Lexeme, tile.raw = lexeme.raw ∧ tile.token.kind = lexeme.kind ∧
    tile.token.value = String.ofList lexeme.value ∧
    Reading.Starts afterWord (lexeme.raw ++ after) (.lexeme lexeme after)

/-- `Laid text first before afterWord tiles` says that after the part `before` of the text come the
tiles and a last gap. Each token is read where its tile stands, where a word counts as just before
it only if no gap lies between, and its position is that of its first character. -/
inductive Laid (text : List Char) (first : Int) : List Char → Bool → List Tile → Prop where
  | ended {before gap : List Char} {afterWord : Bool} (hText : text = before ++ gap)
      (hGap : ∀ c ∈ gap, Cursor.isGap c = true) : Laid text first before afterWord []
  | tile {before after : List Char} {afterWord : Bool} {tile : Tile} {tiles : List Tile}
      (hText : text = before ++ tile.gap ++ tile.raw ++ after)
      (hGap : ∀ c ∈ tile.gap, Cursor.isGap c = true)
      (hFirst : ∀ c ∈ (tile.raw ++ after).head?, Cursor.isGap c = false)
      (hRead : tile.IsRead (tile.gap.isEmpty && afterWord) after)
      (hPosition : tile.token.position = Text.positionAt text first (before ++ tile.gap).length)
      (hMore : Laid text first (before ++ tile.gap ++ tile.raw) tile.token.kind.isWord tiles) :
      Laid text first before afterWord (tile :: tiles)

theorem Tile.IsRead.wellSpelled {tile : Tile} {afterWord : Bool} {after : List Char}
    (hRead : tile.IsRead afterWord after) :
    tile.token.kind.Spells tile.token.value.toList tile.raw ∧
      tile.token.kind.Stops tile.raw after := by
  obtain ⟨lexeme, hRaw, hKind, hValue, hStarts⟩ := hRead
  have hRead : Reading.ofText afterWord lexeme.first (lexeme.more ++ after) =
      .lexeme lexeme after := hStarts.eq_ofText.symm
  have hSpelled := Reading.wellSpelled_ofText afterWord lexeme.first (lexeme.more ++ after)
  rw [hRead] at hSpelled
  rw [hRaw, hKind, hValue, String.toList_ofList]
  exact hSpelled

theorem Tile.IsRead.raw_ne_nil {tile : Tile} {afterWord : Bool} {after : List Char}
    (hRead : tile.IsRead afterWord after) : tile.raw ≠ [] := by
  obtain ⟨lexeme, hRaw, -⟩ := hRead
  rw [hRaw]
  exact List.cons_ne_nil _ _

/-- Generic arguments stand directly behind a word. -/
theorem Tile.IsRead.afterWord_of_angle {tile : Tile} {afterWord : Bool} {after : List Char}
    (hRead : tile.IsRead afterWord after) (hAngle : tile.token.kind = .angle) :
    afterWord = true := by
  obtain ⟨lexeme, -, hKind, -, hStarts⟩ := hRead
  exact hStarts.afterWord_of_angle (hKind.symm.trans hAngle)

theorem Laid.spells_head {text before : List Char} {first : Int} {afterWord : Bool} {tile : Tile}
    {tiles : List Tile} (hLaid : Laid text first before afterWord (tile :: tiles)) :
    tile.token.kind.Spells tile.token.value.toList tile.raw := by
  cases hLaid with
  | tile _ _ _ hRead _ _ => exact hRead.wellSpelled.1

/-- A layout goes on from each of its tiles. -/
theorem Laid.suffix {text : List Char} {first : Int} {before : List Char} {afterWord : Bool}
    {front tiles : List Tile} (hLaid : Laid text first before afterWord (front ++ tiles)) :
    ∃ before afterWord, Laid text first before afterWord tiles := by
  induction front generalizing before afterWord with
  | nil => exact ⟨before, afterWord, hLaid⟩
  | cons tile front ih =>
      cases hLaid with
      | tile _ _ _ _ _ hMore => exact ih hMore

/-- Where a square bracket stands at the place that a layout has reached, the next tile is a square
group that starts right there. -/
theorem Laid.exists_square {text before rest : List Char} {first : Int} {afterWord : Bool}
    {tiles : List Tile} (hLaid : Laid text first before afterWord tiles)
    (hText : text = before ++ '[' :: rest) :
    ∃ tile more, tiles = tile :: more ∧ tile.token.kind = .square ∧
      tile.token.position = Text.positionAt text first before.length := by
  have hGapless {gap after : List Char} (hGap : ∀ c ∈ gap, Cursor.isGap c = true)
      (hSame : gap ++ after = '[' :: rest) : gap = [] := by
    cases gap with
    | nil => rfl
    | cons c gap =>
        have hBracket : c = '[' := (List.cons.inj hSame).1
        have hIsGap := hGap c List.mem_cons_self
        rw [hBracket] at hIsGap
        cases hIsGap
  cases hLaid with
  | @ended _ gap _ hWhole hGap =>
      have hSame : gap ++ [] = '[' :: rest := by
        rw [List.append_nil]
        exact List.append_cancel_left (hWhole.symm.trans hText)
      rw [hGapless hGap hSame] at hSame
      cases hSame
  | @tile _ after _ tile tiles hWhole hGap _ hRead hPosition _ =>
      have hSame : tile.gap ++ (tile.raw ++ after) = '[' :: rest := by
        rw [List.append_assoc, List.append_assoc] at hWhole
        exact List.append_cancel_left (hWhole.symm.trans hText)
      have hNone := hGapless hGap hSame
      rw [hNone, List.nil_append] at hSame
      rw [hNone, List.append_nil] at hPosition
      obtain ⟨lexeme, hRaw, hKind, -, hStarts⟩ := hRead
      rw [← hRaw, hSame] at hStarts
      exact ⟨tile, tiles, rfl, hKind.trans hStarts.kind_of_square, hPosition⟩

namespace Cursor

variable {text : List Char} {first : Int} {cursor : Cursor} {file : String}

/-- The tiles that a scan from a cursor lays: for each token the gap that was skipped and the text
that the cursor moved over. -/
def tiles (file : String) (cursor : Cursor) : List Tile :=
  match _hNext : cursor.next file with
  | .ended _ | .problem _ _ => []
  | .token token after =>
      { gap := cursor.rest.takeWhile isGap
        raw := cursor.skipGap.rest.take (after.offset - cursor.skipGap.offset)
        token } :: tiles file after
  termination_by cursor.rest.length
  decreasing_by exact next_token_length_lt _hNext

theorem tokens_tiles (file : String) (cursor : Cursor) :
    (cursor.tiles file).map Tile.token = (cursor.scan file).tokens := by
  fun_induction tiles file cursor with
  | case1 cursor after hNext | case2 cursor diagnostic after hNext => rw [scan_eq, hNext]; rfl
  | case3 cursor token after hNext ih =>
      rw [scan_eq, hNext]
      simp only [List.map_cons, ih]

/-- A cursor that has moved over something is no longer behind a word. -/
theorem afterWord_advanceBy {count : Nat} (hCount : count ≤ cursor.rest.length) :
    (cursor.advanceBy count).afterWord = (decide (count = 0) && cursor.afterWord) := by
  induction count generalizing cursor with
  | zero => simp [advanceBy]
  | succ count ih =>
      have hAdvance : cursor.advance.afterWord = false := by
        unfold advance
        cases hRest : cursor.rest with
        | nil => simp [hRest] at hCount
        | cons c rest => simp only [apply_ite Cursor.afterWord, ite_self]
      rw [advanceBy, ih (by rw [rest_advance, List.length_tail]; omega), hAdvance]
      simp

theorem afterWord_skipGap (cursor : Cursor) :
    cursor.skipGap.afterWord = ((cursor.rest.takeWhile isGap).isEmpty && cursor.afterWord) := by
  rw [skipGap, afterWord_advanceBy (List.takeWhile_prefix _).length_le]
  cases cursor.rest.takeWhile isGap <;> rfl

/-- The offset of a cursor is the length of the text before it. -/
theorem Tracks.offset_eq {before : List Char} (hTracks : cursor.Tracks text first)
    (hText : text = before ++ cursor.rest) : cursor.offset = before.length := by
  have hOffset := hTracks.hOffset
  have hRest := congrArg List.length hTracks.hRest
  have hWhole := congrArg List.length hText
  rw [List.length_drop] at hRest
  rw [List.length_append] at hWhole
  omega

theorem Tracks.of_next {after : Cursor} {token : Token} (hTracks : cursor.Tracks text first)
    (hNext : cursor.next file = .token token after) : after.Tracks text first := by
  have hStep := (hTracks.next file).1
  rw [hNext] at hStep
  exact hStep

/-- One step of the scanner lays one tile. -/
theorem Tracks.tile_of_next {before : List Char} {after : Cursor} {token : Token}
    (hTracks : cursor.Tracks text first) (hText : text = before ++ cursor.rest)
    (hNext : cursor.next file = .token token after) :
    let gap := cursor.rest.takeWhile isGap
    let raw := cursor.skipGap.rest.take (after.offset - cursor.skipGap.offset)
    text = before ++ gap ++ raw ++ after.rest ∧ after.afterWord = token.kind.isWord ∧
      (∀ c ∈ (raw ++ after.rest).head?, isGap c = false) ∧
      Tile.IsRead ⟨gap, raw, token⟩ (gap.isEmpty && cursor.afterWord) after.rest ∧
      token.position = Text.positionAt text first (before ++ gap).length := by
  intro gap raw
  obtain ⟨lexeme, c, rest, hRest, hReading, hSource, hPlace⟩ := exists_lexeme_of_next hNext
  simp only [Cursor.place, Found.token.injEq] at hPlace
  obtain ⟨hToken, hAfter⟩ := hPlace
  have hSkipped : cursor.skipGap.rest = lexeme.raw ++ after.rest := hRest.trans hSource
  have hMoved : after.offset = cursor.skipGap.offset + lexeme.raw.length := by
    rw [← hAfter]
    exact offset_advanceBy (by rw [hSkipped, List.length_append]; exact Nat.le_add_right _ _)
  have hRaw : raw = lexeme.raw := by
    show cursor.skipGap.rest.take (after.offset - cursor.skipGap.offset) = lexeme.raw
    rw [hMoved, Nat.add_sub_cancel_left, hSkipped, List.take_left]
  have hGap : cursor.rest = gap ++ cursor.skipGap.rest := by
    rw [rest_skipGap, List.takeWhile_append_dropWhile]
  have hStart : cursor.skipGap.offset = (before ++ gap).length := by
    rw [offset_skipGap, hTracks.offset_eq hText, List.length_append]
  have hWhole : text = before ++ gap ++ lexeme.raw ++ after.rest := by
    rw [hText, hGap, hSkipped, ← List.append_assoc, ← List.append_assoc]
  rw [hRaw]
  refine ⟨hWhole, ?_, ?_, ⟨lexeme, rfl, ?_, ?_, ?_⟩, ?_⟩
  · rw [← hAfter, ← hToken]
    rfl
  · rw [← hSkipped, rest_skipGap]
    exact fun d hHead => Text.head?_dropWhile hHead
  · rw [← hToken]
  · rw [← hToken]
  · rw [← afterWord_skipGap, ← hSource]
    exact Reading.ofText_eq_iff.mp hReading
  · rw [← hToken, ← hStart]
    exact hTracks.skipGap.hPosition

/-- A scan without a problem lays the text after the cursor out. -/
theorem Tracks.laid_tiles {before : List Char} (hTracks : cursor.Tracks text first)
    (hText : text = before ++ cursor.rest)
    (hClean : (cursor.scan file).problem = none) :
    Laid text first before cursor.afterWord (cursor.tiles file) := by
  fun_induction tiles file cursor generalizing before with
  | case1 cursor after hNext => exact .ended hText (isGap_of_next_ended hNext)
  | case2 cursor diagnostic after hNext =>
      rw [scan_eq, hNext] at hClean
      cases hClean
  | case3 cursor token after hNext ih =>
      rw [scan_eq, hNext] at hClean
      obtain ⟨hWhole, hWord, hFirst, hRead, hPosition⟩ := hTracks.tile_of_next hText hNext
      refine .tile hWhole (List.all_eq_true.mp List.all_takeWhile) hFirst hRead hPosition ?_
      rw [← hWord]
      exact ih (hTracks.of_next hNext) hWhole hClean

/-- Where a tile is read, the scanner finds its token. -/
theorem next_of_isRead {tile : Tile} {after : List Char}
    (hRest : cursor.rest = tile.gap ++ tile.raw ++ after) (hGap : ∀ c ∈ tile.gap, isGap c = true)
    (hFirst : ∀ c ∈ (tile.raw ++ after).head?, isGap c = false)
    (hRead : tile.IsRead (tile.gap.isEmpty && cursor.afterWord) after)
    (hPosition : tile.token.position = cursor.skipGap.position) (file : String) :
    ∃ further, cursor.next file = .token tile.token further ∧ further.rest = after ∧
      further.afterWord = tile.token.kind.isWord := by
  obtain ⟨lexeme, hRaw, hKind, hValue, hStarts⟩ := hRead
  obtain ⟨hTake, hDrop⟩ := Text.takeWhile_run hGap hFirst
  rw [← List.append_assoc, ← hRest] at hTake hDrop
  have hSkipped : cursor.skipGap.rest = lexeme.first :: (lexeme.more ++ after) := by
    rw [rest_skipGap, hDrop, hRaw]
    rfl
  have hReading : Reading.ofText cursor.skipGap.afterWord lexeme.first (lexeme.more ++ after) =
      .lexeme lexeme after := by
    rw [afterWord_skipGap, hTake]
    exact hStarts.eq_ofText.symm
  have hToken : tile.token =
      ⟨lexeme.kind, String.ofList lexeme.value, cursor.skipGap.line, cursor.skipGap.column⟩ := by
    cases hTile : tile.token with
    | mk kind value line column =>
        simp only [hTile, Token.position, position, Position.mk.injEq] at hKind hValue hPosition
        rw [hKind, hValue, hPosition.1, hPosition.2]
  refine ⟨{ cursor.skipGap.advanceBy lexeme.raw.length with afterWord := lexeme.isWord },
    ?_, ?_, ?_⟩
  · simp only [next, hSkipped, hReading, place, hToken]
  · rw [rest_advanceBy, hSkipped]
    exact List.drop_left
  · rw [hKind]
    rfl

/-- A text that is laid out scans without a problem, and the tokens are those of the tiles. -/
theorem Tracks.scan_of_laid {before : List Char} {tiles : List Tile}
    (hTracks : cursor.Tracks text first) (hText : text = before ++ cursor.rest)
    (hLaid : Laid text first before cursor.afterWord tiles) (file : String) :
    (cursor.scan file).problem = none ∧ (cursor.scan file).tokens = tiles.map Tile.token := by
  generalize hWord : cursor.afterWord = afterWord at hLaid
  induction hLaid generalizing cursor with
  | @ended before gap _ hWhole hGap =>
      have hRest : cursor.rest = gap := List.append_cancel_left (hText.symm.trans hWhole)
      have hSkipped : cursor.skipGap.rest = [] := by
        rw [rest_skipGap, hRest]
        exact List.dropWhile_eq_nil_iff.mpr hGap
      rw [scan_eq, next_eq_ended_iff.mpr ⟨hSkipped, rfl⟩]
      exact ⟨rfl, rfl⟩
  | @tile before after _ tile tiles hWhole hGap hFirst hRead hPosition hMore ih =>
      have hRest : cursor.rest = tile.gap ++ tile.raw ++ after := by
        rw [hText, List.append_assoc, List.append_assoc] at hWhole
        rw [List.append_cancel_left hWhole, List.append_assoc]
      have hStart : cursor.skipGap.offset = (before ++ tile.gap).length := by
        obtain ⟨hTake, -⟩ := Text.takeWhile_run hGap hFirst
        rw [← List.append_assoc, ← hRest] at hTake
        rw [offset_skipGap, hTracks.offset_eq hText, hTake, List.length_append]
      rw [← hStart, ← hTracks.skipGap.hPosition] at hPosition
      rw [← hWord] at hRead
      obtain ⟨further, hNext, rfl, hBehind⟩ :=
        next_of_isRead hRest hGap hFirst hRead hPosition file
      obtain ⟨hProblem, hTokens⟩ := ih (hTracks.of_next hNext) hWhole hBehind
      rw [scan_eq, hNext]
      exact ⟨hProblem, by simp only [hTokens, List.map_cons]⟩

end Cursor

/-- A source text that scans without a problem is laid out by its scan. -/
theorem laid_scanSource {source file : String} {line : Int}
    (hClean : (scanSource source file line).problem = none) :
    Laid source.toList line [] false ((Cursor.start source.toList line).tiles file) :=
  (Cursor.tracks_start source.toList line).laid_tiles rfl hClean

end FlatSyntax
