import Mathlib.Logic.Function.Iterate
import TemplateFill.Proofs.Data.Quoted
import TemplateFill.Proofs.Query.Token
import TemplateFill.Query.Evaluation

/-!
# Queries of one word

A text between quotes is one token. In single quotes it is a literal, which means itself whatever
the data is; in double quotes it is the name of a member, if it can be read as a data text at all.
A name without quotes is a member too, and each negation sign in front of it asks for the opposite
of what the rest counts as, if there is room for all of them.
-/

namespace TemplateFill.Query

open Data (Json)

/-- Nothing in a text ends a quoted token or lets a character through. -/
def IsBare (s : List Char) : Prop := ∀ c ∈ s, c ≠ '\'' ∧ c ≠ '"' ∧ c ≠ '\\'

theorem IsBare.isUnescaped {s : List Char} (bare : IsBare s) :
    ∀ c ∈ s, Data.isUnescaped c := by
  intro c member
  obtain ⟨-, noQuote, noBackslash⟩ := bare c member
  simp [Data.isUnescaped, noQuote, noBackslash]

/-! ### Tokens -/

variable {c : Char} {s rest : List Char}

theorem takeDelimited?_cons (delimiter : Char) (noBackslash : c ≠ '\\') :
    takeDelimited? delimiter (c :: rest) =
      if c = delimiter then some ([], rest)
      else (takeDelimited? delimiter rest).map fun (cs, rest) => (c :: cs, rest) := by
  rw [takeDelimited?]
  · exact fun same _ => noBackslash same
  · exact fun _ _ same _ => noBackslash same

theorem takeDelimited?_append {delimiter : Char} (noBackslash : delimiter ≠ '\\')
    (plain : ∀ c ∈ s, c ≠ delimiter ∧ c ≠ '\\') :
    takeDelimited? delimiter (s ++ delimiter :: rest) = some (s, rest) := by
  induction s with
  | nil => rw [List.nil_append, takeDelimited?_cons delimiter noBackslash, if_pos rfl]
  | cons c s ih =>
    obtain ⟨other, unescaped⟩ := plain c List.mem_cons_self
    rw [List.cons_append, takeDelimited?_cons delimiter unescaped, if_neg other,
      ih fun d member => plain d (List.mem_cons_of_mem _ member)]
    rfl

theorem unescape_eq_self {delimiter : Char} (noBackslash : ∀ c ∈ s, c ≠ '\\') :
    unescape delimiter s = s := by
  fun_induction unescape delimiter s with
  | case1 => rfl
  | case2 c => rfl
  | case3 c d rest escaped ih =>
    have isBackslash : c = '\\' := by
      rw [Bool.and_eq_true, decide_eq_true_iff] at escaped
      exact escaped.1
    exact absurd isBackslash (noBackslash c List.mem_cons_self)
  | case4 c d rest escaped ih =>
    rw [ih fun e member => noBackslash e (List.mem_cons_of_mem _ member)]

theorem lexeme_single [Room] (bare : IsBare s) :
    lexeme '\'' (s ++ ['\'']) = .ok ⟨.literal, .text (String.ofList s), []⟩ := by
  have plain : ∀ c ∈ s, c ≠ '\'' ∧ c ≠ '\\' := by
    intro c member
    exact ⟨(bare c member).1, (bare c member).2.2⟩
  have isTaken : takeDelimited? '\'' (s ++ ['\'']) = some (s, []) :=
    takeDelimited?_append (by decide) plain
  have same : unescape '\'' s = s := unescape_eq_self fun c member => (plain c member).2
  change delimited .literal '\''
    (fun inside => .ok (.text (String.ofList (unescape '\'' inside)))) _ _ = _
  rw [delimited, isTaken]
  dsimp only
  rw [same]

/-- What is found between double quotes is a name, or not a data text. -/
theorem lexeme_double [Room] (bare : IsBare s) :
    lexeme '"' (s ++ ['"']) =
      match readName s with
      | .ok name => .ok ⟨.quotedIdentifier, name, []⟩
      | .error fault => .error ⟨fault, '"' :: (s ++ ['"'])⟩ := by
  have isTaken : takeDelimited? '"' (s ++ ['"']) = some (s, []) :=
    takeDelimited?_append (by decide) fun c member => (bare c member).2
  change delimited .quotedIdentifier '"' _ _ _ = _
  rewrite [delimited, isTaken]
  rfl

/-- A name that needs no quotes. -/
def IsName (s : List Char) : Prop := ∃ c rest, s = c :: rest ∧ isNameStart c ∧ rest.all isNamePart

theorem IsName.isNamePart (isName : IsName s) : ∀ c ∈ s, isNamePart c := by
  obtain ⟨first, rest, rfl, starts, parts⟩ := isName
  intro c member
  obtain rfl | isLater := List.mem_cons.mp member
  · exact isNamePart_of_isNameStart starts
  · exact List.all_eq_true.mp parts c isLater

theorem IsName.nonempty {name : String} (isName : IsName name.toList) : name.isEmpty = false := by
  obtain ⟨first, rest, isText, -, -⟩ := isName
  rw [Bool.eq_false_iff]
  intro isEmpty
  rw [String.isEmpty_iff] at isEmpty
  rw [isEmpty] at isText
  cases isText

/-- No other token begins like a name. -/
theorem kinds_of_isNameStart (starts : isNameStart c) :
    simpleKind? c = none ∧ pairKind? c = none ∧ Data.isSpace c = false := by
  have other (d : Char) (noStart : isNameStart d = false) : c ≠ d := by
    rintro rfl
    rw [noStart] at starts
    cases starts
  refine ⟨?_, ?_, ?_⟩
  · rw [simpleKind?]
    all_goals exact other _ (by decide)
  · rw [pairKind?]
    all_goals exact other _ (by decide)
  · rw [Data.isSpace, decide_eq_false (other ' ' (by decide)),
      decide_eq_false (other '\t' (by decide)), decide_eq_false (other '\n' (by decide)),
      decide_eq_false (other '\r' (by decide))]
    rfl

theorem lexeme_name [Room] (starts : isNameStart c) (parts : rest.all isNamePart) :
    lexeme c rest = .ok ⟨.unquotedIdentifier, .text (String.ofList (c :: rest)), []⟩ := by
  have all : ∀ d ∈ c :: rest, isNamePart d := IsName.isNamePart ⟨c, rest, rfl, starts, parts⟩
  obtain ⟨noSimple, noPair, -⟩ := kinds_of_isNameStart starts
  unfold lexeme
  simp only [noSimple, noPair, starts, if_true]
  rw [List.takeWhile_eq_self_iff.mpr all, List.dropWhile_eq_nil_iff.mpr all]

/-- A token at the front of a text stands before the tokens of the rest. -/
theorem tokensFrom_cons [Room] {total bound : Nat} {found : Lexeme} {others : List Token}
    (noSpace : Data.isSpace c = false) (isFound : lexeme c rest = .ok found)
    (follow : tokensFrom total bound found.rest = .ok others) :
    tokensFrom total (bound + 1) (c :: rest) =
      .ok (⟨found.kind, found.value, total - (rest.length + 1)⟩ :: others) := by
  rw [tokensFrom, noSpace, isFound]
  change (tokensFrom total bound found.rest >>= _) = _
  rw [follow]
  rfl

/-! ### Reading -/

theorem parse_of_tokens [Room] {text : String} {found : List Token} (nonempty : text ≠ "")
    (isTokens : tokens text.toList = .ok found) : parse text = ofTokens found := by
  have some : text.toList.isEmpty = false := by
    simpa using nonempty
  unfold parse
  simp only [some, isTokens, Bool.false_eq_true, if_false]

/-- A text of one token is what the token says. -/
theorem parse_of_lexeme [Room] {text : String} {found : Lexeme} (isText : text.toList = c :: rest)
    (noSpace : Data.isSpace c = false) (isFound : lexeme c rest = .ok found)
    (whole : found.rest = []) :
    parse text = ofTokens [⟨found.kind, found.value, 0⟩,
      ⟨.eof, .text "", rest.length + 1⟩] := by
  apply parse_of_tokens
  · rintro rfl
    cases isText
  · have ending : tokensFrom (rest.length + 1) (rest.length + 1) found.rest =
        .ok [⟨.eof, .text "", rest.length + 1⟩] := by
      rw [whole, tokensFrom]
    rw [isText, tokens, List.length_cons, tokensFrom_cons noSpace isFound ending, Nat.sub_self]

/-- Nothing follows an operand at the end of the text. -/
theorem operators_eof (operator : Query → Cursor → Parsing (Query × Cursor)) (power bound : Nat)
    (left : Query) {here : Cursor} (ends : here.kind = .eof) :
    operators operator power (bound + 1) left here = .ok (left, here) := by
  have weakest : ¬ power < TokenKind.eof.power := Nat.not_lt_zero power
  rw [operators, ends, if_neg weakest]

/-- The last operand of a text is the whole expression. -/
theorem expression_last {room power : Nat} {before token stop : Token} {query : Query}
    (ends : stop.kind = .eof)
    (isRead : operand (room + 1) token ⟨token, stop, []⟩ = .ok (query, ⟨token, stop, []⟩)) :
    expression (room + 2) power ⟨before, token, [stop]⟩ = .ok (query, ⟨token, stop, []⟩) := by
  rw [expression]
  change (operand (room + 1) token ⟨token, stop, []⟩ >>= _) = _
  rw [isRead]
  exact operators_eof _ power 0 query ends

/-- An expression takes room for itself and for its first operand. -/
theorem expression_of_short {room : Nat} (short : room < 2) (power : Nat) (here : Cursor) :
    expression room power here = tooDeep := by
  match room with
  | 0 => rw [expression]
  | 1 =>
    rw [expression, operand]
    rfl

/-- A negation sign in front of an expression. -/
theorem operand_not {room : Nat} {sign : Token} (isSign : sign.kind = .not) (here : Cursor) :
    operand (room + 1) sign here = (expression room TokenKind.not.power here).map
      fun (query, here) => (.negation query, here) := by
  rw [operand, isSign]
  cases expression room TokenKind.not.power here <;> rfl

/-- Negation signs in front of the last operand, from the innermost one outwards. Each takes room
for itself and for what it stands in front of. -/
theorem expression_signs {word stop : Token} {query : Query} {signs : List Token}
    (areSigns : ∀ sign ∈ signs, sign.kind = .not) (ends : stop.kind = .eof)
    (isRead : ∀ room, operand (room + 1) word ⟨word, stop, []⟩ = .ok (query, ⟨word, stop, []⟩))
    {room power : Nat} {before first : Token} {after : List Token}
    (isText : signs ++ [word, stop] = first :: after) :
    expression room power ⟨before, first, after⟩ =
      if 2 * signs.length + 2 ≤ room then
        .ok (Query.negation^[signs.length] query, ⟨word, stop, []⟩)
      else tooDeep := by
  induction signs generalizing room power before first after with
  | nil =>
    obtain ⟨rfl, rfl⟩ := List.cons.inj isText
    match room with
    | 0 | 1 => rw [expression_of_short (by decide), if_neg (by simp)]
    | room + 2 =>
      rw [expression_last ends (isRead room), if_pos (by simp)]
      rfl
  | cons sign signs ih =>
    obtain ⟨next, others, isRest⟩ : ∃ next others, signs ++ [word, stop] = next :: others :=
      List.exists_cons_of_ne_nil (by simp)
    rw [List.cons_append, isRest] at isText
    obtain ⟨rfl, rfl⟩ := List.cons.inj isText
    have inner := @ih (fun other member => areSigns other (List.mem_cons_of_mem _ member))
    match room with
    | 0 | 1 => rw [expression_of_short (by decide), if_neg (by rw [List.length_cons]; omega)]
    | room + 2 =>
      rw [expression]
      change (operand (room + 1) sign ⟨sign, next, others⟩ >>= _) = _
      rw [operand_not (areSigns sign List.mem_cons_self), inner isRest, List.length_cons]
      by_cases fits : 2 * signs.length + 2 ≤ room
      · rw [if_pos fits, if_pos (by omega), Function.iterate_succ_apply']
        exact operators_eof _ power 0 _ ends
      · rw [if_neg fits, if_neg (by omega)]
        rfl

theorem ofTokens_signs [Room] {word stop : Token} {q : Query} {signs : List Token}
    (areSigns : ∀ sign ∈ signs, sign.kind = .not) (ends : stop.kind = .eof)
    (isRead : ∀ room, operand (room + 1) word ⟨word, stop, []⟩ =
      .ok (q, ⟨word, stop, []⟩)) :
    ofTokens (signs ++ [word, stop]) =
      if 2 * signs.length ≤ Room.parsing + 2 then .ok (Query.negation^[signs.length] q)
      else tooDeep := by
  obtain ⟨first, after, isText⟩ : ∃ first after, signs ++ [word, stop] = first :: after :=
    List.exists_cons_of_ne_nil (by simp)
  rw [isText, ofTokens, expression_signs areSigns ends isRead isText]
  by_cases fits : 2 * signs.length ≤ Room.parsing + 2
  · rw [if_pos fits, if_pos (by omega)]
    exact if_pos ends
  · rw [if_neg fits, if_neg (by omega)]
    rfl

/-- One token is the whole text, and there is always room for it. -/
theorem ofTokens_pair [Room] {word stop : Token} {q : Query} (ends : stop.kind = .eof)
    (isRead : ∀ room, operand (room + 1) word ⟨word, stop, []⟩ =
      .ok (q, ⟨word, stop, []⟩)) :
    ofTokens [word, stop] = .ok q := by
  have isQuery := ofTokens_signs (List.forall_mem_nil _) ends isRead
  rwa [List.length_nil, if_pos (Nat.zero_le _)] at isQuery

/-! ### Texts in quotes -/

theorem toList_single (s : String) : ("'" ++ s ++ "'").toList = '\'' :: (s.toList ++ ['\'']) := by
  simp

theorem toList_double (s : String) : ("\"" ++ s ++ "\"").toList = '"' :: (s.toList ++ ['"']) := by
  simp

/-- A text in single quotes is read as a literal. -/
theorem parse_single [Room] {s : String} (bare : IsBare s.toList) :
    parse ("'" ++ s ++ "'") = .ok (.literal (.text s)) := by
  rw [parse_of_lexeme (toList_single s) (by decide) (lexeme_single bare) rfl, String.ofList_toList,
    ofTokens_pair rfl (q := .literal (.text s))]
  intro room
  rw [operand]

/-- A text in double quotes is read as the name of a member, unless it holds a control
character. -/
theorem parse_double [Room] {s : String} (bare : IsBare s.toList)
    (noControl : s.toList.any Data.isControl = false) :
    parse ("\"" ++ s ++ "\"") = .ok (.field s) := by
  have isName : readName s.toList = .ok (.text s) := by
    change (Data.readChars ('"' :: (s.toList ++ ['"']))).mapError _ = _
    rw [Data.readChars_quoted bare.isUnescaped noControl, String.ofList_toList]
    rfl
  have isFound := lexeme_double bare
  rw [isName] at isFound
  rw [parse_of_lexeme (toList_double s) (by decide) isFound rfl, ofTokens_pair rfl (q := .field s)]
  intro room
  rw [operand]
  rfl

theorem parse_double_control [Room] {s : String} (bare : IsBare s.toList)
    (control : s.toList.any Data.isControl) :
    ∃ cause, parse ("\"" ++ s ++ "\"") = .error (.refusal cause) ∧ cause.obstacle? = none := by
  obtain ⟨failure, failed⟩ := Data.readChars_control bare.isUnescaped control
  have noName : ∃ words, readName s.toList = .error (.badName words) := by
    change ∃ words, (Data.readChars ('"' :: (s.toList ++ ['"']))).mapError _ = _
    rw [failed]
    exact ⟨_, rfl⟩
  obtain ⟨words, noName⟩ := noName
  have noLexeme := lexeme_double bare
  rw [noName] at noLexeme
  have noTokens : tokens ("\"" ++ s ++ "\"").toList =
      .error ⟨.badName words, '"' :: (s.toList ++ ['"'])⟩ := by
    rw [toList_double, tokens, List.length_cons, tokensFrom, noLexeme]
    rfl
  have nonempty : ("\"" ++ s ++ "\"").toList.isEmpty = false := by
    rw [toList_double]
    rfl
  unfold parse
  simp only [nonempty, noTokens, Bool.false_eq_true, if_false]
  exact ⟨_, rfl, rfl⟩

/-! ### Names behind negation signs -/

def signed (n : Nat) (name : String) : String := String.ofList (List.replicate n '!') ++ name

theorem toList_signed (n : Nat) (name : String) :
    (signed n name).toList = List.replicate n '!' ++ name.toList := by
  rw [signed, String.toList_append, String.toList_ofList]

theorem signed_zero (name : String) : signed 0 name = name := by
  apply String.toList_injective
  rw [toList_signed]
  rfl

theorem signed_succ (n : Nat) (name : String) : signed (n + 1) name = "!" ++ signed n name := by
  apply String.toList_injective
  rw [String.toList_append, toList_signed, toList_signed, List.replicate_succ]
  rfl

/-- A negation sign is a token of its own if no equality sign follows it. -/
theorem lexeme_not [Room] (other : c ≠ '=') :
    lexeme '!' (c :: rest) = .ok ⟨.not, .text "!", c :: rest⟩ := by
  change (if c = '=' then _ else _) = _
  exact if_neg other

/-- The tokens of a name behind negation signs. -/
theorem tokensFrom_signed [Room] (total : Nat) (starts : isNameStart c) (parts : rest.all isNamePart)
    (n : Nat) :
    ∃ signs i, (∀ sign ∈ signs, sign.kind = .not) ∧ signs.length = n ∧
      tokensFrom total (n + (rest.length + 2)) (List.replicate n '!' ++ c :: rest) =
        .ok (signs ++ [⟨.unquotedIdentifier, .text (String.ofList (c :: rest)), i⟩,
          ⟨.eof, .text "", total⟩]) := by
  induction n with
  | zero =>
    obtain ⟨-, -, noSpace⟩ := kinds_of_isNameStart starts
    have ending : tokensFrom total (rest.length + 1) [] = .ok [⟨.eof, .text "", total⟩] := by
      rw [tokensFrom]
    refine ⟨[], total - (rest.length + 1), List.forall_mem_nil _, rfl, ?_⟩
    rw [Nat.zero_add]
    exact tokensFrom_cons noSpace (lexeme_name starts parts) ending
  | succ n ih =>
    obtain ⟨signs, i, areSigns, length, isTokens⟩ := ih
    obtain ⟨d, others, isRest, other⟩ : ∃ d others,
        List.replicate n '!' ++ c :: rest = d :: others ∧ d ≠ '=' := by
      cases n with
      | zero =>
        refine ⟨c, rest, rfl, ?_⟩
        rintro rfl
        cases starts
      | succ n => exact ⟨'!', List.replicate n '!' ++ c :: rest, rfl, by decide⟩
    rw [isRest] at isTokens
    have longer := tokensFrom_cons (by decide) (lexeme_not other) isTokens
    rw [List.replicate_succ, List.cons_append, isRest, Nat.add_right_comm n 1]
    exact ⟨_ :: signs, i, List.forall_mem_cons.mpr ⟨rfl, areSigns⟩, congrArg (· + 1) length,
      longer⟩

/-- Each negation sign in front of a name is read as a negation, if there is room for them. -/
theorem parse_signed [Room] {name : String} (isName : IsName name.toList) (n : Nat) :
    parse (signed n name) =
      if 2 * n ≤ Room.parsing + 2 then .ok (Query.negation^[n] (.field name)) else tooDeep := by
  obtain ⟨c, rest, isText, starts, parts⟩ := isName
  obtain ⟨signs, i, areSigns, rfl, isTokens⟩ :=
    tokensFrom_signed (signed n name).toList.length starts parts n
  have letters : (signed signs.length name).toList =
      List.replicate signs.length '!' ++ c :: rest := by
    rw [toList_signed, isText]
  have nonempty : signed signs.length name ≠ "" := by
    intro isEmpty
    rw [isEmpty] at letters
    simp at letters
  have bound : (signed signs.length name).toList.length + 1 = signs.length + (rest.length + 2) := by
    rw [letters, List.length_append, List.length_replicate, List.length_cons]
    omega
  rw [← bound, ← letters] at isTokens
  rw [parse_of_tokens nonempty isTokens, ← isText, String.ofList_toList,
    ofTokens_signs areSigns rfl (q := .field name)]
  intro room
  rw [operand]
  rfl

theorem parse_name [Room] {name : String} (isName : IsName name.toList) :
    parse name = .ok (.field name) := by
  have isParsed := parse_signed isName 0
  rwa [signed_zero, if_pos (Nat.zero_le _)] at isParsed

/-! ### Searching -/

theorem search_literal [Room] (value : Json) (v : Datum) :
    search (.literal value) v = .ok (.ofJson value) := rfl

/-- Each negation takes room, and so does the name behind them. -/
theorem eval_negations [Room] (room : Nat) (name : String) (v : Datum) (n : Nat) :
    eval room (Query.negation^[n] (.field name)) v =
      if n < room then pure (negated^[n] ((v.member? name).getD .null))
      else liftM (breakDown .tooDeep : Outcome Datum) := by
  induction n generalizing room with
  | zero => cases room <;> rfl
  | succ n ih =>
    cases room with
    | zero => rfl
    | succ room =>
      rw [Function.iterate_succ_apply', Function.iterate_succ_apply', eval, ih]
      by_cases fits : n < room
      · rw [if_pos fits, if_pos (Nat.succ_lt_succ fits)]
        rfl
      · rw [if_neg fits, if_neg (mt Nat.lt_of_succ_lt_succ fits)]
        rfl

theorem search_negations [Room] (name : String) (v : Datum) (n : Nat) :
    search (Query.negation^[n] (.field name)) v =
      if n ≤ Room.evaluating + 1 then .ok (negated^[n] ((v.member? name).getD .null))
      else breakDown .tooDeep := by
  rw [search, eval_negations]
  by_cases fits : n ≤ Room.evaluating + 1
  · rw [if_pos fits, if_pos (Nat.lt_succ_of_le fits)]
    rfl
  · rw [if_neg fits, if_neg (mt Nat.le_of_lt_succ fits)]
    rfl

theorem search_field [Room] (name : String) (v : Datum) :
    search (.field name) v = .ok ((v.member? name).getD .null) := search_negations name v 0

end TemplateFill.Query
