import TalAnalysis.Declaration.Header

namespace TalAnalysis.Declaration

variable {t : Token}

structure TokenOf (kind : TokenKind) where
  token : Token
  ofKind : token.kind = kind

structure NameToken where
  token : Token
  isName : token.kind.isName = true

structure TypeToken where
  token : Token
  dataType : DataType
  isType : token.kind = .dataType dataType

def plainToken (kind : TokenKind) (text : String) : TokenOf kind :=
  ⟨.write kind text ⟨0, text.length⟩ 0 0, rfl⟩

def plainName (text : String) : NameToken := ⟨.write (.name text) text ⟨0, text.length⟩ 0 0, rfl⟩

def plainStop : TokenOf (.delimiter .semicolon) := plainToken _ ";"

theorem kind_of_isName (isName : t.kind.isName = true) : ∃ name, t.kind = .name name := by
  rw [TokenKind.isName, TokenKind.name?.eq_def] at isName
  split at isName
  · rename_i name kind
    exact ⟨name, kind⟩
  · cases isName

theorem isWord_of_isName (isName : t.kind.isName = true) : t.kind.isWord = true := by
  obtain ⟨name, kind⟩ := kind_of_isName isName
  rw [kind]
  rfl

theorem name_isDelimiter (name : NameToken) (d : Delimiter) : name.token.isDelimiter d = false := by
  obtain ⟨spelling, kind⟩ := kind_of_isName name.isName
  rw [Token.isDelimiter, kind]
  rfl

theorem delimiter_isDelimiter {d : Delimiter} (t : TokenOf (.delimiter d)) (e : Delimiter) :
    t.token.isDelimiter e = decide (d = e) := by
  rw [Token.isDelimiter, t.ofKind]
  by_cases same : d = e <;> simp [same]

theorem isDelimiter_self {d : Delimiter} (t : TokenOf (.delimiter d)) :
    t.token.isDelimiter d = true := by
  rw [delimiter_isDelimiter]
  exact decide_eq_true rfl

theorem isDelimiter_eq_false {d e : Delimiter} (other : d ≠ e)
    (h : t.isDelimiter d = true) : t.isDelimiter e = false := by
  have kind : t.kind = .delimiter d := eq_of_beq h
  rw [Token.isDelimiter, kind]
  exact beq_false_of_ne fun same => other (TokenKind.delimiter.inj same)

theorem between_of_other {opening : Delimiter} (other : t.isDelimiter opening = false)
    (closing : Delimiter) (rest : List Token) :
    between opening closing (t :: rest) = ⟨[], t :: rest⟩ := by
  rw [between, other]
  rfl

theorem skipLayout_stop {d : Delimiter} (t : TokenOf (.delimiter d)) (rest : List Token) :
    skipLayout (t.token :: rest) = t.token :: rest := by
  rw [skipLayout, List.dropWhile_cons_of_neg]
  simp [t.ofKind, TokenKind.isLayout, TokenKind.isComment]

theorem pastSemicolon_stop (stop : TokenOf (.delimiter .semicolon)) (rest : List Token) :
    pastSemicolon (stop.token :: rest) = rest := by
  rw [pastSemicolon, List.dropWhile_cons_of_neg, List.tail_cons]
  simp [isDelimiter_self]

theorem listEnd_stop (stop : TokenOf (.delimiter .semicolon)) (rest : List Token) :
    listEnd (stop.token :: rest) = .closed rest := by
  have noComma : stop.token.isDelimiter .comma = false := delimiter_isDelimiter stop _
  have ends := isDelimiter_self stop
  rw [listEnd, skipLayout_stop]
  simp [noComma, ends]

end TalAnalysis.Declaration
