import FlatSyntax.Scanner.Scan

/-!
Token streams: the tokens of a source text on demand. A stream moves only when it is asked, so the
gap after a token is skipped by the next request. A stream that has ended, or has met a problem,
gives nothing more until it is restarted; a restart goes on from where the cursor stands.
-/

namespace FlatSyntax

structure TokenStream where
  file : String
  cursor : Cursor
  /-- Whether the stream has ended or met a problem. -/
  ended : Bool := false
deriving DecidableEq, Repr

namespace TokenStream

inductive Request where
  /-- Ask for one token. -/
  | next
  /-- Ask for all tokens that remain. -/
  | rest
  /-- Open the stream again at the cursor. -/
  | restart
deriving DecidableEq, Repr

/-- The tokens that a request gives and the problem that it meets. -/
structure Answer where
  tokens : List Token := []
  problem : Option Diagnostic := none
deriving DecidableEq, Repr

/-- The stream over a source text whose first line has the given number. -/
def ofSource (source file : String) (line : Int) : TokenStream :=
  { file, cursor := .start source.toList line }

/-- Serve one request. -/
def serve (stream : TokenStream) : Request → Answer × TokenStream
  | .restart => ({}, { stream with ended := false })
  | .next =>
      if stream.ended then ({}, stream)
      else
        match stream.cursor.next stream.file with
        | .token token cursor => ({ tokens := [token] }, { stream with cursor })
        | .problem diagnostic cursor =>
            ({ problem := some diagnostic }, { stream with cursor, ended := true })
        | .ended cursor => ({}, { stream with cursor, ended := true })
  | .rest =>
      if stream.ended then ({}, stream)
      else
        let scan := stream.cursor.scan stream.file
        ({ tokens := scan.tokens, problem := scan.problem },
          { stream with cursor := scan.cursor, ended := true })

/-- Serve requests one after the other; each answer is given with the stream after it. -/
def serveAll (stream : TokenStream) : List Request → List (Answer × TokenStream)
  | [] => []
  | request :: more =>
      let served := stream.serve request
      served :: serveAll served.2 more

end TokenStream

end FlatSyntax
