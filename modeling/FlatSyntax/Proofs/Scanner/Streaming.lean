import FlatSyntax.Proofs.Scanner.Resumption
import FlatSyntax.Scanner.Stream

/-! Token streams against the scan of the whole text. However a stream is asked and restarted, it
hands out the tokens of that scan one after the other, until it meets the problem that the scan
meets, in the same state. -/
namespace FlatSyntax

namespace Cursor

variable {cursor : Cursor} {file : String}

/-- Nothing is left where a scan without a problem ended. -/
theorem scan_cursor_scan (hClean : (cursor.scan file).problem = none) :
    (cursor.scan file).cursor.scan file = ⟨[], none, (cursor.scan file).cursor⟩ :=
  scan_of_rest_eq_nil (rest_cursor_scan hClean) file

end Cursor

namespace TokenStream

/-- Tokens at hand, to be given out in order, with the problem that lies behind them. -/
structure Supply where
  tokens : List Token
  problem : Option Diagnostic
  ended : Bool := false
deriving DecidableEq, Repr

namespace Supply

/-- Serve one request from the tokens at hand. -/
def serve (supply : Supply) : Request → Answer × Supply
  | .restart => ({}, { supply with ended := false })
  | .next =>
      if supply.ended then ({}, supply)
      else
        match supply.tokens with
        | token :: more => ({ tokens := [token] }, { supply with tokens := more })
        | [] => ({ problem := supply.problem }, { supply with ended := true })
  | .rest =>
      if supply.ended then ({}, supply)
      else
        ({ tokens := supply.tokens, problem := supply.problem },
          { supply with tokens := [], ended := true })

def serveAll (supply : Supply) : List Request → List (Answer × Supply)
  | [] => []
  | request :: more =>
      let served := supply.serve request
      served :: serveAll served.2 more

end Supply

/-- Answers up to the first one that meets a problem, together with that one. -/
def upToProblem {State : Type} : List (Answer × State) → List (Answer × State)
  | [] => []
  | served :: more => served :: if served.1.problem.isSome then [] else upToProblem more

/-- The tokens that answers hand out. -/
def handedOut {State : Type} (served : List (Answer × State)) : List Token :=
  served.flatMap (·.1.tokens)

theorem handedOut_congr {State State' : Type} {first : List (Answer × State)}
    {second : List (Answer × State')} (hSame : first.map Prod.fst = second.map Prod.fst) :
    handedOut first = handedOut second := by
  have hFlat := congrArg (List.flatMap Answer.tokens) hSame
  rw [List.flatMap_map, List.flatMap_map] at hFlat
  exact hFlat

/-- The scan from the cursor of a stream, as a supply. -/
def left (stream : TokenStream) : Supply :=
  let scan := stream.cursor.scan stream.file
  { tokens := scan.tokens, problem := scan.problem, ended := stream.ended }

/-- A stream after the scan from its cursor. -/
def spent (stream : TokenStream) : TokenStream :=
  { stream with cursor := (stream.cursor.scan stream.file).cursor, ended := true }

/-- A stream answers from what it has still to give. A problem leaves it spent, and any other answer
leaves it with the rest of the supply and the same end before it. -/
theorem serve_left (stream : TokenStream) (request : Request) :
    let served := stream.serve request
    served.1 = (stream.left.serve request).1 ∧
      if served.1.problem.isSome then served.2 = stream.spent
      else served.2.left = (stream.left.serve request).2 ∧ served.2.spent = stream.spent := by
  obtain ⟨file, cursor, ended⟩ := stream
  cases ended with
  | true => cases request <;> exact ⟨rfl, rfl, rfl⟩
  | false =>
      cases request with
      | restart => exact ⟨rfl, rfl, rfl⟩
      | next =>
          have hScan := Cursor.scan_eq file cursor
          cases hNext : cursor.next file with
          | token token after =>
              rw [hNext] at hScan
              simp [serve, Supply.serve, left, spent, hNext, hScan]
          | problem diagnostic after =>
              rw [hNext] at hScan
              simp [serve, Supply.serve, left, spent, hNext, hScan]
          | ended after =>
              rw [hNext] at hScan
              have hAgain := Cursor.scan_cursor_scan (congrArg Scan.problem hScan)
              rw [hScan] at hAgain
              simp [serve, Supply.serve, left, spent, hNext, hScan, hAgain]
      | rest =>
          cases hProblem : (cursor.scan file).problem with
          | some diagnostic => simp [serve, Supply.serve, left, spent, hProblem]
          | none =>
              have hAgain := Cursor.scan_cursor_scan hProblem
              simp [serve, Supply.serve, left, spent, hProblem, hAgain]

/-- Up to the first problem the answers of a stream are those of a list of tokens, and the problem
leaves the stream spent. -/
theorem upToProblem_serveAll (stream : TokenStream) (requests : List Request) :
    (upToProblem (stream.serveAll requests)).map Prod.fst =
        (upToProblem (stream.left.serveAll requests)).map Prod.fst ∧
      ∀ served ∈ upToProblem (stream.serveAll requests), served.1.problem.isSome = true →
        served.2 = stream.spent := by
  induction requests generalizing stream with
  | nil => exact ⟨rfl, List.forall_mem_nil _⟩
  | cons request more ih =>
      obtain ⟨hAnswer, hAfter⟩ := stream.serve_left request
      simp only [serveAll, Supply.serveAll, upToProblem, ← hAnswer, List.map_cons]
      cases hProblem : (stream.serve request).1.problem.isSome with
      | true =>
          rw [hProblem, if_pos rfl] at hAfter
          exact ⟨rfl, List.forall_mem_singleton.mpr fun _ => hAfter⟩
      | false =>
          rw [hProblem, if_neg Bool.false_ne_true] at hAfter
          obtain ⟨hLeft, hSpent⟩ := hAfter
          obtain ⟨hAnswers, hStreams⟩ := ih (stream.serve request).2
          rw [hLeft] at hAnswers
          rw [hSpent] at hStreams
          refine ⟨congrArg _ hAnswers, List.forall_mem_cons.mpr ⟨fun hSome => ?_, hStreams⟩⟩
          rw [hProblem] at hSome
          cases hSome

namespace Supply

/-- A supply that stopped only because nothing was left. -/
def Honest (supply : Supply) : Prop := supply.ended = true → supply.tokens = []

variable {supply : Supply}

/-- One answer takes the tokens it gives off the front of the supply. -/
theorem serve_tokens (hHonest : supply.Honest) (request : Request) :
    let served := supply.serve request
    served.1.tokens ++ served.2.tokens = supply.tokens ∧ served.2.Honest ∧
      served.2.problem = supply.problem ∧
      (∀ problem ∈ served.1.problem, supply.problem = some problem ∧ served.2.tokens = []) ∧
      (request = .rest → served.2.tokens = []) := by
  obtain ⟨tokens, problem, ended⟩ := supply
  cases ended with
  | true =>
      obtain rfl : tokens = [] := hHonest rfl
      cases request <;> simp [serve, Honest]
  | false =>
      cases request with
      | restart => simp [serve, Honest]
      | rest => simp [serve, Honest]
      | next => cases tokens <;> simp [serve, Honest]

/-- However a supply is asked, what it gives is the front of its tokens. Nothing is left behind
its problem, nor after a request for all that remains. -/
theorem handedOut_serveAll (hHonest : supply.Honest) (requests : List Request) :
    let reached := upToProblem (supply.serveAll requests)
    ∃ kept, handedOut reached ++ kept = supply.tokens ∧
      (∀ served ∈ reached, ∀ problem ∈ served.1.problem,
        supply.problem = some problem ∧ kept = []) ∧
      (.rest ∈ requests → kept = []) := by
  induction requests generalizing supply with
  | nil => exact ⟨supply.tokens, rfl, List.forall_mem_nil _, fun hMem => by cases hMem⟩
  | cons request more ih =>
      obtain ⟨hTokens, hAfter, hSame, hProblem, hRest⟩ := serve_tokens hHonest request
      simp only [serveAll, upToProblem, handedOut, List.flatMap_cons, List.append_assoc]
      cases hAnswer : (supply.serve request).1.problem with
      | some problem =>
          obtain ⟨hSupply, hNone⟩ := hProblem problem hAnswer
          refine ⟨[], ?_, List.forall_mem_singleton.mpr fun other hOther => ?_, fun _ => rfl⟩
          · rw [← hTokens, hNone]
            rfl
          · rw [hAnswer, ← hSupply] at hOther
            exact ⟨hOther, rfl⟩
      | none =>
          obtain ⟨kept, hHanded, hMeets, hAll⟩ := ih hAfter
          refine ⟨kept, ?_, List.forall_mem_cons.mpr ⟨fun problem hMem => ?_, ?_⟩, ?_⟩
          · rw [← hTokens, ← hHanded]
            rfl
          · rw [hAnswer] at hMem
            cases hMem
          · rw [← hSame]
            exact hMeets
          · intro hMem
            rcases List.mem_cons.mp hMem with rfl | hMore
            · rw [hRest rfl] at hHanded
              exact (List.append_eq_nil_iff.mp hHanded).2
            · exact hAll hMore

end Supply

end TokenStream

/-- Streams over one text compose. However the text is asked for one token or for all that remain,
and however often it is opened again, the answers up to the first problem are those of a list with
the tokens of one scan. The tokens handed out are the first ones of that scan, a problem is its
problem, met behind all of its tokens and in the state that the scan leaves, and a request for all
that remain leaves nothing out. -/
theorem streams_compose (source file : String) (line : Int) (requests : List TokenStream.Request) :
    let whole := scanSource source file line
    let stream := TokenStream.ofSource source file line
    let supply : TokenStream.Supply := { tokens := whole.tokens, problem := whole.problem }
    let reached := TokenStream.upToProblem (stream.serveAll requests)
    let handed := TokenStream.handedOut reached
    reached.map Prod.fst = (TokenStream.upToProblem (supply.serveAll requests)).map Prod.fst ∧
      handed <+: whole.tokens ∧
      (∀ served ∈ reached, ∀ problem ∈ served.1.problem,
        whole.problem = some problem ∧ handed = whole.tokens ∧
          served.2 = { stream with cursor := whole.cursor, ended := true }) ∧
      (.rest ∈ requests → handed = whole.tokens) := by
  intro whole stream supply reached handed
  obtain ⟨hAnswers, hStreams⟩ := stream.upToProblem_serveAll requests
  have hHonest : supply.Honest := by rintro ⟨⟩
  obtain ⟨kept, hHanded, hMeets, hAll⟩ := TokenStream.Supply.handedOut_serveAll hHonest requests
  have hSame :
      handed = TokenStream.handedOut (TokenStream.upToProblem (supply.serveAll requests)) :=
    TokenStream.handedOut_congr hAnswers
  rw [← hSame] at hHanded
  refine ⟨hAnswers, ⟨kept, hHanded⟩, fun served hServed problem hProblem => ?_, fun hRest => ?_⟩
  · have hMem : served.1 ∈ (TokenStream.upToProblem (supply.serveAll requests)).map Prod.fst :=
      hAnswers ▸ List.mem_map_of_mem hServed
    obtain ⟨given, hGiven, hFirst⟩ := List.mem_map.mp hMem
    obtain ⟨hWhole, rfl⟩ := hMeets given hGiven problem (hFirst ▸ hProblem)
    rw [List.append_nil] at hHanded
    exact ⟨hWhole, hHanded, hStreams served hServed (Option.isSome_of_mem hProblem)⟩
  · rw [hAll hRest, List.append_nil] at hHanded
    exact hHanded

/-- A text with a problem in it, opened again before the problem. -/
theorem streams_compose_unclosed :
    let requests : List TokenStream.Request := [.next, .restart, .rest]
    let stream := TokenStream.ofSource "x y (" "f" 1
    .rest ∈ requests ∧
      TokenStream.handedOut (TokenStream.upToProblem (stream.serveAll requests)) =
        [⟨.identifier, "x", 1, 1⟩, ⟨.identifier, "y", 1, 3⟩] := by
  intro requests stream
  have hRest : .rest ∈ requests := by decide
  obtain ⟨-, -, -, hAll⟩ := streams_compose "x y (" "f" 1 requests
  refine ⟨hRest, (hAll hRest).trans ?_⟩
  decide +kernel

end FlatSyntax
