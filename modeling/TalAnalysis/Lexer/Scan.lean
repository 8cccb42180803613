import TalAnalysis.Diagnostic
import TalAnalysis.Lexer.Piece
import TalAnalysis.Text.Reader

namespace TalAnalysis
open Text

structure LexOptions where
  /-- Comments are tokens, and a `?` that opens its line is told from one that does not. -/
  keepComments : Bool := false
  /-- Names with one space between them are one name. -/
  groupNames : Bool := false
deriving DecidableEq, Repr, Inhabited

structure PlacedPiece where
  piece : Piece
  place : Place
deriving DecidableEq, Repr, Inhabited

namespace PlacedPiece

def span (p : PlacedPiece) : Span :=
  ⟨p.place.offset, p.place.offset + byteLength p.piece.text⟩

def token? (keepComments : Bool) (p : PlacedPiece) : Option Token := do
  let kind ← p.piece.kind?
  guard (keepComments || !kind.isComment)
  let kind := if kind = .directiveLine ∧ keepComments = false then .directive else kind
  return .write kind (String.ofList p.piece.text) p.span p.place.line p.place.column

def cause? (p : PlacedPiece) : Option Cause :=
  match p.piece.lexeme with
  | .comment false => some .unterminatedComment
  | .number value =>
      if maxInteger < value then some (.integerOutOfRange (String.ofList p.piece.text)) else none
  | .string _ false => some .unterminatedString
  | .unknown c => some (.unknownCharacter c)
  | _ => none

def diagnostic? (p : PlacedPiece) : Option Diagnostic := p.cause?.map (.ofCause · p.span)

end PlacedPiece

def piecesFrom (groupNames : Bool) (lookback : Lookback) (reader : Reader) : List PlacedPiece :=
  match _unread : reader.rest with
  | [] => []
  | c :: rest =>
    let piece := Piece.read groupNames lookback reader.lineRead c rest
    ⟨piece, reader.place⟩ ::
      piecesFrom groupNames (piece.lookback lookback) (reader.skip piece.text.length)
termination_by reader.rest.length
decreasing_by
  have := List.length_pos_iff.2 (Piece.read_text_ne_nil groupNames lookback reader.lineRead c rest)
  simp [_unread]
  omega

theorem piecesFrom_nil {reader : Reader} (unread : reader.rest = []) (groupNames : Bool)
    (lookback : Lookback) : piecesFrom groupNames lookback reader = [] := by
  rw [piecesFrom]
  split
  · rfl
  · simp_all

theorem piecesFrom_cons {reader : Reader} {c : Char} {rest : List Char}
    (unread : reader.rest = c :: rest) (groupNames : Bool) (lookback : Lookback) :
    let piece := Piece.read groupNames lookback reader.lineRead c rest
    piecesFrom groupNames lookback reader = ⟨piece, reader.place⟩ ::
      piecesFrom groupNames (piece.lookback lookback) (reader.skip piece.text.length) := by
  rw [piecesFrom]
  split
  · simp_all
  · rename_i d tail found
    obtain ⟨rfl, rfl⟩ := List.cons.inj (unread.symm.trans found)
    rfl

def pieces (groupNames : Bool) (source : String) : List PlacedPiece :=
  piecesFrom groupNames .plain (Reader.ofText source.toList)

structure Lexed where
  tokens : List Token
  diagnostics : List Diagnostic
deriving DecidableEq, Repr, Inhabited

def lex (source : String) (options : LexOptions) : Lexed :=
  let pieces := pieces options.groupNames source
  { tokens := pieces.filterMap (PlacedPiece.token? options.keepComments)
    diagnostics := pieces.filterMap PlacedPiece.diagnostic? }

end TalAnalysis
