import FlatSyntax.Proofs.Lexeme.SpellingUnique
import FlatSyntax.Scanner.Scan

/-! Scanning as a tiling of the source text. A scan without a problem cuts the text into gaps and
the spellings of its tokens, so that no character is lost, shared or read twice. -/
namespace FlatSyntax

/-- A token with the characters that spell it and the gap before it. -/
structure Tile where
  gap : List Char
  raw : List Char
  token : Token

/-- A text that consists of tiles and a last gap. Every token is spelled as its kind says and ends
where its kind has to end before the text that follows. -/
inductive Tiling : List Char → List Tile → Prop where
  | ended {gap : List Char} (hGap : ∀ c ∈ gap, Cursor.isGap c = true) : Tiling gap []
  | token {tile : Tile} {after : List Char} {tiles : List Tile}
      (hGap : ∀ c ∈ tile.gap, Cursor.isGap c = true)
      (hSpells : tile.token.kind.Spells tile.token.value.toList tile.raw)
      (hStops : tile.token.kind.Stops tile.raw after) (hAfter : Tiling after tiles) :
      Tiling (tile.gap ++ tile.raw ++ after) (tile :: tiles)

theorem Tiling.spells {text : List Char} {tiles : List Tile} (tiling : Tiling text tiles) :
    ∀ tile ∈ tiles, tile.token.kind.Spells tile.token.value.toList tile.raw := by
  induction tiling with
  | ended => simp
  | token _ hSpells _ _ ih =>
      intro tile hMem
      rcases List.mem_cons.mp hMem with rfl | hMore
      · exact hSpells
      · exact ih tile hMore

namespace Cursor

/-- Skipping a gap leaves out nothing but gap characters. -/
theorem exists_gap_of_skipGap (cursor : Cursor) :
    ∃ gap, cursor.rest = gap ++ cursor.skipGap.rest ∧ ∀ c ∈ gap, isGap c = true := by
  refine ⟨cursor.rest.takeWhile isGap, ?_, List.all_eq_true.mp List.all_takeWhile⟩
  rw [rest_skipGap, List.takeWhile_append_dropWhile]

/-- A token is found after a gap, as a lexeme that starts there. -/
theorem exists_lexeme_of_next {file : String} {cursor after : Cursor} {token : Token}
    (hNext : cursor.next file = .token token after) :
    ∃ lexeme first rest, cursor.skipGap.rest = first :: rest ∧
      Reading.ofText cursor.skipGap.afterWord first rest = .lexeme lexeme after.rest ∧
      first :: rest = lexeme.raw ++ after.rest ∧
      cursor.skipGap.place file (.lexeme lexeme after.rest) = .token token after := by
  unfold next at hNext
  cases hRest : cursor.skipGap.rest with
  | nil => simp [hRest] at hNext
  | cons first rest =>
      simp only [hRest] at hNext
      have hSource := Reading.source_ofText cursor.skipGap.afterWord first rest
      cases hReading : Reading.ofText cursor.skipGap.afterWord first rest with
      | fault problem skipped covered rest => simp [hReading, place] at hNext
      | lexeme lexeme more =>
          rw [hReading] at hNext hSource
          obtain rfl : more = after.rest := by
            simp only [place, Found.token.injEq] at hNext
            rw [← hNext.2, rest_advanceBy, hRest, ← hSource]
            exact List.drop_left.symm
          exact ⟨lexeme, first, rest, rfl, hReading, hSource.symm, hNext⟩

/-- One step of the scanner lays one tile. -/
theorem exists_tile_of_next {file : String} {cursor after : Cursor} {token : Token}
    (hNext : cursor.next file = .token token after) :
    ∃ gap raw, cursor.rest = gap ++ raw ++ after.rest ∧ (∀ c ∈ gap, isGap c = true) ∧
      token.kind.Spells token.value.toList raw ∧ token.kind.Stops raw after.rest := by
  obtain ⟨lexeme, first, rest, hRest, hReading, hSource, hPlace⟩ := exists_lexeme_of_next hNext
  obtain ⟨gap, hGapRest, hGap⟩ := cursor.exists_gap_of_skipGap
  have hSpelled := Reading.wellSpelled_ofText cursor.skipGap.afterWord first rest
  rw [hReading] at hSpelled
  simp only [place, Found.token.injEq] at hPlace
  refine ⟨gap, lexeme.raw, ?_, hGap, ?_, ?_⟩
  · rw [hGapRest, hRest, hSource, List.append_assoc]
  · rw [← hPlace.1, String.toList_ofList]
    exact hSpelled.1
  · rw [← hPlace.1]
    exact hSpelled.2

/-- The scanner ends at the end of the text, after a last gap. -/
theorem next_eq_ended_iff {file : String} {cursor after : Cursor} :
    cursor.next file = .ended after ↔ cursor.skipGap.rest = [] ∧ cursor.skipGap = after := by
  unfold next
  cases hText : cursor.skipGap.rest with
  | nil => simp [hText]
  | cons first rest =>
      simp only [hText]
      generalize Reading.ofText cursor.skipGap.afterWord first rest = reading
      cases reading <;> simp [place]

/-- The scanner ends only where nothing but a gap is left. -/
theorem isGap_of_next_ended {file : String} {cursor after : Cursor}
    (hNext : cursor.next file = .ended after) : ∀ c ∈ cursor.rest, isGap c = true := by
  obtain ⟨gap, hRest, hGap⟩ := cursor.exists_gap_of_skipGap
  rw [hRest, (next_eq_ended_iff.mp hNext).1, List.append_nil]
  exact hGap

/-- Every token of a scan is spelled as its kind says, also where the scan ends in a problem. -/
theorem spells_of_mem_scan {file : String} {cursor : Cursor} {token : Token}
    (hMem : token ∈ (cursor.scan file).tokens) :
    ∃ raw, token.kind.Spells token.value.toList raw := by
  fun_induction scan file cursor with
  | case1 | case2 => cases hMem
  | case3 cursor first after hNext further ih =>
      rcases List.mem_cons.mp hMem with rfl | hMore
      · obtain ⟨_, raw, -, -, hSpells, -⟩ := exists_tile_of_next hNext
        exact ⟨raw, hSpells⟩
      · exact ih hMore

/-- A scan without a problem tiles the text after the cursor with its tokens. -/
theorem exists_tiling_of_scan (file : String) (cursor : Cursor)
    (hClean : (cursor.scan file).problem = none) :
    ∃ tiles, Tiling cursor.rest tiles ∧ tiles.map Tile.token = (cursor.scan file).tokens := by
  fun_induction scan file cursor with
  | case1 cursor after hNext => exact ⟨[], .ended (isGap_of_next_ended hNext), rfl⟩
  | case2 => simp at hClean
  | case3 cursor token after hNext further ih =>
      obtain ⟨gap, raw, hRest, hGap, hSpells, hStops⟩ := exists_tile_of_next hNext
      obtain ⟨tiles, hTiling, hTokens⟩ := ih hClean
      let tile : Tile := ⟨gap, raw, token⟩
      have hTile : Tiling (tile.gap ++ tile.raw ++ after.rest) (tile :: tiles) :=
        .token hGap hSpells hStops hTiling
      refine ⟨tile :: tiles, ?_, by rw [List.map_cons, hTokens]⟩
      rw [hRest]
      exact hTile

end Cursor

/-- A source text that scans without a problem is exactly its gaps and the spellings of its tokens,
in order. Each spelling ends where its kind has to end, and tells the value and the kind of its
token; only the dollar sign by itself is shared by two kinds. -/
theorem source_is_tiled_by_scan (source file : String) (line : Int)
    (hClean : (scanSource source file line).problem = none) :
    ∃ tiles, Tiling source.toList tiles ∧
      tiles.map Tile.token = (scanSource source file line).tokens ∧
      ∀ tile ∈ tiles, ∀ kind value, TokenKind.Spells kind value tile.raw →
        value = tile.token.value.toList ∧ (kind = tile.token.kind ∨ tile.raw = ['$']) := by
  obtain ⟨tiles, hTiling, hTokens⟩ :=
    Cursor.exists_tiling_of_scan file (.start source.toList line) hClean
  refine ⟨tiles, hTiling, hTokens, fun tile hMem kind value hSpells => ?_⟩
  exact TokenKind.spells_unique hSpells (hTiling.spells tile hMem)

/-- Of the escapes in the literal, the letter `q` is none, so its backslash stays. -/
theorem source_is_tiled_by_scan_marker :
    let source := "v<t> $[1] \"\\n\\q\\\\\" // n"
    let tokens : List Token :=
      [⟨.identifier, "v", 1, 1⟩, ⟨.angle, "t", 1, 2⟩, ⟨.staticMarker, "$", 1, 6⟩,
        ⟨.square, "1", 1, 7⟩, ⟨.string, "\n\\q\\", 1, 11⟩, ⟨.comment, "n", 1, 20⟩]
    (scanSource source "" 1).problem = none ∧
      ∃ tiles, Tiling source.toList tiles ∧ tiles.map Tile.token = tokens ∧
        ∀ tile ∈ tiles, ∀ kind value, TokenKind.Spells kind value tile.raw →
          value = tile.token.value.toList ∧ (kind = tile.token.kind ∨ tile.raw = ['$']) := by
  intro source tokens
  have hClean : (scanSource source "" 1).problem = none := by decide +kernel
  have hTokens : (scanSource source "" 1).tokens = tokens := by decide +kernel
  rw [← hTokens]
  exact ⟨hClean, source_is_tiled_by_scan source "" 1 hClean⟩

end FlatSyntax
