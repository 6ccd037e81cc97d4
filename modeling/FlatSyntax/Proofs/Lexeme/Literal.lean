import FlatSyntax.Lexeme.Literal

/-! The inside of a literal as a grammar of its own. Reading an inside that is followed by any text
leaves the reader where that text starts, so a literal ends at the first quote that no backslash
takes, and is cut off at the first such line feed or at the end of the text. -/
namespace FlatSyntax.Literal

/-- An inside that nothing cuts off. A backslash takes the next character with it, whatever that is;
any other character is neither the closing quote nor a line feed. -/
inductive Inside (quote : Char) : List Char → Prop where
  | nil : Inside quote []
  | plain {c : Char} {rest : List Char} (hQuote : c ≠ quote) (hLine : c ≠ '\n')
      (hEscape : c ≠ '\\') (hRest : Inside quote rest) : Inside quote (c :: rest)
  | escaped {e : Char} {rest : List Char} (hRest : Inside quote rest) :
      Inside quote ('\\' :: e :: rest)

/-- A line feed stands in an inside only where a backslash takes it. -/
theorem Inside.lineFeed_mem_iff {quote : Char} {body : List Char} (hInside : Inside quote body) :
    '\n' ∈ body ↔ ∃ front back, body = front ++ '\\' :: '\n' :: back ∧ Inside quote front := by
  constructor
  · intro hMem
    induction hInside with
    | nil => cases hMem
    | plain hQuote hLine hEscape _ ih =>
        obtain ⟨front, back, rfl, hFront⟩ := ih (List.mem_of_ne_of_mem (Ne.symm hLine) hMem)
        exact ⟨_ :: front, back, rfl, .plain hQuote hLine hEscape hFront⟩
    | @escaped e rest _ ih =>
        by_cases hFeed : e = '\n'
        · exact ⟨[], rest, by rw [hFeed]; rfl, .nil⟩
        · have hRest : '\n' ∈ rest := by simpa [Ne.symm hFeed] using hMem
          obtain ⟨front, back, rfl, hFront⟩ := ih hRest
          exact ⟨'\\' :: e :: front, back, rfl, .escaped hFront⟩
  · rintro ⟨front, back, rfl, -⟩
    simp

/-- The text that the inside of a literal stands for. -/
def resolve : List Char → List Char
  | [] => []
  | '\\' :: e :: rest => unescape e ++ resolve rest
  | c :: rest => c :: resolve rest

theorem resolve_cons {c : Char} (hEscape : c ≠ '\\') (rest : List Char) :
    resolve (c :: rest) = c :: resolve rest := by
  rw [resolve.eq_3]
  rintro _ _ hHead -
  exact hEscape hHead

/-- What the inside of a literal stands for, taken from its front. A character stands for itself,
and behind a backslash for its meaning in the table of escapes. Where the table has none, the
backslash belongs to the text as well. -/
inductive StandsFor : List Char → List Char → Prop where
  | nil : StandsFor [] []
  | plain {c : Char} {rest value : List Char} (hEscape : c ≠ '\\') (hRest : StandsFor rest value) :
      StandsFor (c :: rest) (c :: value)
  | escape {sign meaning : Char} {rest value : List Char} (hSign : (sign, meaning) ∈ escapes)
      (hRest : StandsFor rest value) : StandsFor ('\\' :: sign :: rest) (meaning :: value)
  | unknown {sign : Char} {rest value : List Char} (hSign : ∀ meaning, (sign, meaning) ∉ escapes)
      (hRest : StandsFor rest value) : StandsFor ('\\' :: sign :: rest) ('\\' :: sign :: value)

theorem unescape_of_mem_escapes {sign meaning : Char} (hSign : (sign, meaning) ∈ escapes) :
    unescape sign = [meaning] := by
  have hTable : ∀ entry ∈ escapes, unescape entry.1 = [entry.2] := by decide
  exact hTable (sign, meaning) hSign

theorem unescape_of_notMem_escapes {sign : Char} (hSign : ∀ meaning, (sign, meaning) ∉ escapes) :
    unescape sign = ['\\', sign] := by
  have hLookup : escapes.lookup sign = none := by
    refine List.lookup_eq_none_iff.mpr fun entry hMem => bne_iff_ne.mpr ?_
    rintro rfl
    exact hSign entry.2 hMem
  rw [unescape, hLookup]

theorem StandsFor.eq_resolve {body value : List Char} (hStands : StandsFor body value) :
    value = resolve body := by
  induction hStands with
  | nil => rfl
  | plain hEscape _ ih => rw [resolve_cons hEscape, ih]
  | escape hSign _ ih => rw [resolve, unescape_of_mem_escapes hSign, ih, List.singleton_append]
  | unknown hSign _ ih => rw [resolve, unescape_of_notMem_escapes hSign, ih]; rfl

theorem Inside.standsFor_resolve {quote : Char} {body : List Char} (hInside : Inside quote body) :
    StandsFor body (resolve body) := by
  induction hInside with
  | nil => exact .nil
  | plain _ _ hEscape _ ih =>
      rw [resolve_cons hEscape]
      exact .plain hEscape ih
  | @escaped e rest _ ih =>
      rw [resolve]
      by_cases hKnown : ∃ meaning, (e, meaning) ∈ escapes
      · obtain ⟨meaning, hSign⟩ := hKnown
        rw [unescape_of_mem_escapes hSign]
        exact .escape hSign ih
      · have hSign : ∀ meaning, (e, meaning) ∉ escapes := not_exists.mp hKnown
        rw [unescape_of_notMem_escapes hSign]
        exact .unknown hSign ih

theorem ne_of_isQuote {quote : Char} (hQuote : isQuote quote = true) :
    quote ≠ '\\' ∧ quote ≠ '\n' ∧ quote ≠ '/' := by
  simp only [isQuote, Bool.or_eq_true, beq_iff_eq] at hQuote
  rcases hQuote with rfl | rfl <;> decide

theorem readBody_quote (quote : Char) (rest : List Char) :
    readBody quote (quote :: rest) = ⟨[], [], true, rest⟩ := by
  cases rest <;> simp [readBody]

theorem readBody_lineFeed {quote : Char} (hQuote : quote ≠ '\n') (rest : List Char) :
    readBody quote ('\n' :: rest) = ⟨[], [], false, '\n' :: rest⟩ := by
  cases rest <;> simp [readBody, Ne.symm hQuote]

theorem readBody_escaped {quote : Char} (hQuote : quote ≠ '\\') (e : Char) (rest : List Char) :
    readBody quote ('\\' :: e :: rest) = (readBody quote rest).cons ['\\', e] (unescape e) := by
  simp [readBody, Ne.symm hQuote]

theorem readBody_plain {quote c : Char} (hQuote : c ≠ quote) (hLine : c ≠ '\n')
    (hEscape : c ≠ '\\') (rest : List Char) :
    readBody quote (c :: rest) = (readBody quote rest).cons [c] [c] := by
  cases rest <;> simp [readBody, hQuote, hLine, hEscape]

/-- Reading passes over an inside, whatever follows it. -/
theorem readBody_append {quote : Char} {raw : List Char} (hInside : Inside quote raw)
    (hQuote : quote ≠ '\\') (tail : List Char) :
    readBody quote (raw ++ tail) = (readBody quote tail).cons raw (resolve raw) := by
  induction hInside with
  | nil => rfl
  | @plain c rest hOther hLine hEscape _ ih =>
      rw [List.cons_append, readBody_plain hOther hLine hEscape, ih, resolve_cons hEscape]
      rfl
  | @escaped e rest _ ih =>
      rw [List.cons_append, List.cons_append, readBody_escaped hQuote, ih]
      simp [resolve, Body.cons]

/-- A text that cuts a literal off where it starts, or closes nothing because it is the end. -/
inductive CutOff : List Char → Prop where
  | lineFeed (rest : List Char) : CutOff ('\n' :: rest)
  | ended : CutOff []
  /-- A backslash at the end of the text takes nothing. -/
  | lonelyEscape : CutOff ['\\']

/-- What reading finds after an opening quote: an inside, then the closing quote or what cuts the
literal off. -/
theorem exists_inside_of_text (quote : Char) (text : List Char) :
    ∃ raw tail, text = raw ++ tail ∧ Inside quote raw ∧
      (tail.head? = some quote ∨ CutOff tail) := by
  fun_induction readBody quote text with
  | case1 => exact ⟨[], [], rfl, .nil, Or.inr .ended⟩
  | case2 rest => exact ⟨[], quote :: rest, rfl, .nil, Or.inl rfl⟩
  | case3 rest => exact ⟨[], '\n' :: rest, rfl, .nil, Or.inr (.lineFeed rest)⟩
  | case4 => exact ⟨[], ['\\'], rfl, .nil, Or.inr .lonelyEscape⟩
  | case5 e more _ _ ih =>
      obtain ⟨raw, tail, hText, hInside, hTail⟩ := ih
      exact ⟨'\\' :: e :: raw, tail, by rw [hText]; rfl, .escaped hInside, hTail⟩
  | case6 c rest hOther hLine hEscape ih =>
      obtain ⟨raw, tail, hText, hInside, hTail⟩ := ih
      exact ⟨c :: raw, tail, by rw [hText]; rfl, .plain hOther hLine hEscape hInside, hTail⟩

theorem readBody_closed {quote : Char} {raw : List Char} (hInside : Inside quote raw)
    (hQuote : quote ≠ '\\') (rest : List Char) :
    readBody quote (raw ++ quote :: rest) = ⟨raw, resolve raw, true, rest⟩ := by
  rw [readBody_append hInside hQuote, readBody_quote]
  simp [Body.cons]

/-- A literal that is cut off holds the lone backslash, if there is one, and stops at a line
feed. -/
theorem readBody_closed_eq_false {quote : Char} {raw tail : List Char}
    (hInside : Inside quote raw) (hQuote : isQuote quote = true) (hTail : CutOff tail) :
    (readBody quote (raw ++ tail)).closed = false := by
  obtain ⟨hEscape, hLine, -⟩ := ne_of_isQuote hQuote
  rw [readBody_append hInside hEscape]
  cases hTail with
  | lineFeed rest => rw [readBody_lineFeed hLine]; rfl
  | ended => rfl
  | lonelyEscape => simp [readBody, Body.cons, Ne.symm hEscape]

/-- The characters of a closed literal are an inside, and its value is what they stand for. -/
theorem inside_of_closed {quote : Char} {text : List Char} (hQuote : isQuote quote = true)
    (hClosed : (readBody quote text).closed = true) :
    Inside quote (readBody quote text).raw ∧
      (readBody quote text).value = resolve (readBody quote text).raw := by
  obtain ⟨raw, tail, rfl, hInside, hHead | hCut⟩ := exists_inside_of_text quote text
  · obtain ⟨rest, rfl⟩ : ∃ rest, tail = quote :: rest := List.head?_eq_some_iff.mp hHead
    rw [readBody_closed hInside (ne_of_isQuote hQuote).1]
    exact ⟨hInside, rfl⟩
  · rw [readBody_closed_eq_false hInside hQuote hCut] at hClosed
    cases hClosed

theorem skip_quote (quote : Char) (rest : List Char) :
    skip quote (quote :: rest) = ([quote], rest) := by
  cases rest <;> simp [skip]

theorem skip_lineFeed {quote : Char} (hQuote : quote ≠ '\n') (rest : List Char) :
    skip quote ('\n' :: rest) = ([], '\n' :: rest) := by
  cases rest <;> simp [skip, Ne.symm hQuote]

theorem skip_escaped {quote : Char} (hQuote : quote ≠ '\\') (e : Char) (rest : List Char) :
    skip quote ('\\' :: e :: rest) = ('\\' :: e :: (skip quote rest).1, (skip quote rest).2) := by
  simp [skip, Ne.symm hQuote]

theorem skip_plain {quote c : Char} (hQuote : c ≠ quote) (hLine : c ≠ '\n') (hEscape : c ≠ '\\')
    (rest : List Char) :
    skip quote (c :: rest) = (c :: (skip quote rest).1, (skip quote rest).2) := by
  cases rest <;> simp [skip, hQuote, hLine, hEscape]

/-- Skipping passes over an inside, whatever follows it. -/
theorem skip_inside {quote : Char} {raw : List Char} (hInside : Inside quote raw)
    (hQuote : quote ≠ '\\') (tail : List Char) :
    skip quote (raw ++ tail) = (raw ++ (skip quote tail).1, (skip quote tail).2) := by
  induction hInside with
  | nil => rfl
  | @plain c rest hOther hLine hEscape _ ih =>
      rw [List.cons_append, skip_plain hOther hLine hEscape, ih]
      rfl
  | @escaped e rest _ ih =>
      rw [List.cons_append, List.cons_append, skip_escaped hQuote, ih]
      rfl

/-- Passing over a literal takes the characters that reading it takes, the closing quote
included. -/
theorem skip_eq_readBody (quote : Char) (text : List Char) :
    skip quote text =
      ((readBody quote text).raw ++ (if (readBody quote text).closed then [quote] else []),
        (readBody quote text).rest) := by
  fun_induction readBody quote text with
  | case1 => rfl
  | case2 rest => rw [skip_quote]; rfl
  | case3 rest hQuote => rw [skip_lineFeed (Ne.symm hQuote)]; rfl
  | case4 hQuote => simp [skip, hQuote]
  | case5 e more hQuote _ ih => rw [skip_escaped (Ne.symm hQuote), ih]; rfl
  | case6 c rest hQuote hLine hEscape ih => rw [skip_plain hQuote hLine hEscape, ih]; rfl

/-- A literal is closed exactly where passing over it ends in a quote that no backslash takes. -/
theorem closed_readBody_iff {quote : Char} (hQuote : isQuote quote = true) (text : List Char) :
    (readBody quote text).closed = true ↔
      ∃ body, (skip quote text).1 = body ++ [quote] ∧ Inside quote body := by
  constructor
  · intro hClosed
    exact ⟨_, by rw [skip_eq_readBody, if_pos hClosed], (inside_of_closed hQuote hClosed).1⟩
  · rintro ⟨body, hPassed, hInside⟩
    have hText : text = body ++ quote :: (skip quote text).2 := by
      rw [← List.singleton_append, ← List.append_assoc, ← hPassed, skip_append]
    rw [hText, readBody_closed hInside (ne_of_isQuote hQuote).1]

end FlatSyntax.Literal
