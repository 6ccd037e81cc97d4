import FlatSyntax.Proofs.Scanner.Layout

/-! Where the tokens of a scan stand, by offsets into the source text. Every token covers the
characters that spell it, from its offset on; no two tokens cover the same character; and a token is
read right behind a word exactly where a word ends at its offset. All of this holds up to the place
where a scan ends, also where it ends in a problem. -/
namespace FlatSyntax

/-- A tile with the offset of the first character of its token. -/
structure PlacedTile extends Tile where
  offset : Nat
deriving DecidableEq

/-- The offset behind a token. -/
def PlacedTile.stop (placed : PlacedTile) : Nat := placed.offset + placed.raw.length

/-- Tiles from an offset on, one behind the other. -/
def Tile.place : (start : Nat) → List Tile → List PlacedTile
  | _, [] => []
  | start, tile :: more =>
      let placed : PlacedTile := { toTile := tile, offset := start + tile.gap.length }
      placed :: place placed.stop more

/-- The tokens of a scan in a source text, each at its place. -/
def placedTokens (source file : String) (line : Int) : List PlacedTile :=
  Tile.place 0 ((Cursor.start source.toList line).tiles file)

/-- One of the tokens is a word and ends at the offset. -/
def WordEndsAt (placed : List PlacedTile) (offset : Nat) : Prop :=
  ∃ word ∈ placed, word.token.kind.isWord = true ∧ word.stop = offset

theorem Tile.token_place (start : Nat) (tiles : List Tile) :
    (place start tiles).map (·.token) = tiles.map Tile.token := by
  induction tiles generalizing start with
  | nil => rfl
  | cons tile more ih => simp only [place, List.map_cons, ih]

theorem Tile.le_offset_of_mem_place {start : Nat} {tiles : List Tile} {placed : PlacedTile}
    (hMem : placed ∈ place start tiles) : start ≤ placed.offset := by
  induction tiles generalizing start with
  | nil => cases hMem
  | cons tile more ih =>
      rcases List.mem_cons.mp hMem with rfl | hMore
      · exact Nat.le_add_right start _
      · have hLater := ih hMore
        simp only [PlacedTile.stop] at hLater
        omega

/-- Every token ends before those behind it start. -/
theorem Tile.pairwise_place (start : Nat) (tiles : List Tile) :
    (place start tiles).Pairwise fun placed later => placed.stop ≤ later.offset := by
  induction tiles generalizing start with
  | nil => exact .nil
  | cons tile more ih => exact .cons (fun _ hMem => le_offset_of_mem_place hMem) (ih _)

theorem wordEndsAt_cons {placed : PlacedTile} {more : List PlacedTile} {offset : Nat} :
    WordEndsAt (placed :: more) offset ↔
      placed.token.kind.isWord = true ∧ placed.stop = offset ∨ WordEndsAt more offset := by
  simp only [WordEndsAt, List.mem_cons, or_and_right, exists_or, exists_eq_left]

/-- No word behind a place ends before it. -/
theorem WordEndsAt.le {start offset : Nat} {tiles : List Tile}
    (hWord : WordEndsAt (Tile.place start tiles) offset) : start ≤ offset := by
  obtain ⟨word, hMem, -, rfl⟩ := hWord
  exact (Tile.le_offset_of_mem_place hMem).trans (Nat.le_add_right _ _)

theorem token_placedTokens (source file : String) (line : Int) :
    (placedTokens source file line).map (·.token) = (scanSource source file line).tokens :=
  (Tile.token_place 0 _).trans (Cursor.tokens_tiles file _)

/-- A token stands in a text where its offset says and is read there; `afterWord` tells whether it
is read as standing right behind a word. -/
structure PlacedTile.StandsIn (text : List Char) (first : Int) (afterWord : Bool)
    (placed : PlacedTile) : Prop where
  hRead : placed.IsRead afterWord (text.drop placed.stop)
  hText : text.drop placed.offset = placed.raw ++ text.drop placed.stop
  hPosition : placed.token.position = Text.positionAt text first placed.offset

/-- A tile behind the part `before` of a text has its token where the gap ends. -/
theorem PlacedTile.standsIn_of_append {text before after : List Char} {first : Int}
    {afterWord : Bool} {tile : Tile} (hText : text = before ++ tile.gap ++ tile.raw ++ after)
    (hRead : tile.IsRead afterWord after)
    (hPosition : tile.token.position = Text.positionAt text first (before ++ tile.gap).length) :
    PlacedTile.StandsIn text first afterWord
      { toTile := tile, offset := before.length + tile.gap.length } := by
  have hOffset : (before ++ tile.gap).length = before.length + tile.gap.length :=
    List.length_append
  have hAfter : text.drop (before.length + tile.gap.length + tile.raw.length) = after := by
    rw [hText, ← hOffset, ← List.length_append, List.drop_left]
  refine ⟨?_, ?_, hOffset ▸ hPosition⟩
  · rw [PlacedTile.stop, hAfter]
    exact hRead
  · rw [PlacedTile.stop, hAfter, hText, ← hOffset, List.append_assoc _ tile.raw, List.drop_left]

namespace Cursor

variable {text before : List Char} {first : Int} {cursor : Cursor} {file : String}

/-- Every token that a scan lays stands in the text. It is right behind a word where a word ends at
its offset: one of the scan, or the one before the cursor. -/
theorem Tracks.standsIn_of_mem_place (hTracks : cursor.Tracks text first)
    (hText : text = before ++ cursor.rest) {placed : PlacedTile}
    (hMem : placed ∈ Tile.place before.length (cursor.tiles file)) :
    ∃ afterWord, placed.StandsIn text first afterWord ∧
      (afterWord = true ↔
        (cursor.afterWord = true ∧ placed.offset = before.length) ∨
          WordEndsAt (Tile.place before.length (cursor.tiles file)) placed.offset) := by
  fun_induction tiles file cursor generalizing before with
  | case1 | case2 => cases hMem
  | case3 cursor token after hNext ih =>
      obtain ⟨hWhole, hWord, -, hRead, hPosition⟩ := hTracks.tile_of_next hText hNext
      generalize cursor.rest.takeWhile isGap = gap at *
      generalize cursor.skipGap.rest.take (after.offset - cursor.skipGap.offset) = raw at *
      have hRaw : 0 < raw.length := List.length_pos_iff.mpr hRead.raw_ne_nil
      have hStop : before.length + gap.length + raw.length = (before ++ gap ++ raw).length := by
        simp only [List.length_append]
      simp only [Tile.place, PlacedTile.stop, hStop] at hMem ⊢
      simp only [wordEndsAt_cons, PlacedTile.stop]
      rcases List.mem_cons.mp hMem with rfl | hMore
      · refine ⟨gap.isEmpty && cursor.afterWord,
          PlacedTile.standsIn_of_append hWhole hRead hPosition, ?_⟩
        -- the words of the scan end behind the first character of the token
        have hNone : ¬ WordEndsAt (Tile.place (before ++ gap ++ raw).length (after.tiles file))
            (before.length + gap.length) := by
          intro hEnds
          have hLater := hEnds.le
          omega
        simp only [Bool.and_eq_true, List.isEmpty_iff_length_eq_zero]
        constructor
        · rintro ⟨hEmpty, hBehind⟩
          exact Or.inl ⟨hBehind, by omega⟩
        · rintro (⟨hBehind, hHere⟩ | ⟨-, hHere⟩ | hEnds)
          · exact ⟨by omega, hBehind⟩
          · omega
          · exact absurd hEnds hNone
      · obtain ⟨afterWord, hStands, hBehind⟩ := ih (hTracks.of_next hNext) hWhole hMore
        have hLater := Tile.le_offset_of_mem_place hMore
        refine ⟨afterWord, hStands, hBehind.trans ?_⟩
        rw [hWord]
        constructor
        · rintro (⟨hToken, hHere⟩ | hEnds)
          · exact Or.inr (Or.inl ⟨hToken, by omega⟩)
          · exact Or.inr (Or.inr hEnds)
        · rintro (⟨-, hHere⟩ | ⟨hToken, hHere⟩ | hEnds)
          · omega
          · exact Or.inl ⟨hToken, by omega⟩
          · exact Or.inr hEnds

end Cursor

/-- Every token of a scan stands in the source text, right behind a word where a word ends at its
offset. -/
theorem standsIn_of_mem_placedTokens {source file : String} {line : Int} {placed : PlacedTile}
    (hMem : placed ∈ placedTokens source file line) :
    ∃ afterWord, placed.StandsIn source.toList line afterWord ∧
      (afterWord = true ↔ WordEndsAt (placedTokens source file line) placed.offset) := by
  have hText : source.toList = [] ++ (Cursor.start source.toList line).rest := rfl
  obtain ⟨afterWord, hStands, hBehind⟩ :=
    (Cursor.tracks_start source.toList line).standsIn_of_mem_place hText hMem
  refine ⟨afterWord, hStands, hBehind.trans ?_⟩
  simp [Cursor.start, placedTokens]

end FlatSyntax
