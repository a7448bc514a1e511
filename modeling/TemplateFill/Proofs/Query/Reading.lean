import TemplateFill.Proofs.Query.Calm
import TemplateFill.Proofs.Query.Token
import TemplateFill.Query.Parser

/-!
# Texts that are no queries

A text that is no query is refused for a reason that can be told, unless it holds a number with
more digits than are read or is nested more deeply than there is room for. A short text does neither:
from one token to the next, no more than three readers are begun inside each other.
-/

namespace TemplateFill.Query

variable [Room] {bounded : Bool}

/-! ### Places among the tokens -/

/-- The tokens at a place are whole, and at most so many are left. -/
structure Cursor.Fits (bounded : Bool) (count : Nat) (here : Cursor) : Prop where
  size : here.size ≤ count
  before : here.before.IsShown bounded
  whole : AreWhole bounded (here.current :: here.after)

variable {count n : Nat} {here : Cursor}

namespace Cursor.Fits

theorem current (fits : here.Fits bounded count) : here.current.IsShown bounded :=
  fits.whole.shown _ List.mem_cons_self

theorem pos (fits : here.Fits bounded count) : 0 < count :=
  Nat.lt_of_lt_of_le (Nat.succ_pos _) fits.size

theorem mono {more : Nat} (fits : here.Fits bounded count) (le : count ≤ more) :
    here.Fits bounded more :=
  ⟨Nat.le_trans fits.size le, fits.before, fits.whole⟩

/-- Only at the end token there may be none behind the current one. -/
theorem exists_after (fits : here.Fits bounded count) (more : here.kind ≠ .eof) :
    ∃ n, count = n + 2 := by
  have size := fits.size
  have ends := fits.whole.ends
  rw [Cursor.size] at size
  cases isAfter : here.after with
  | nil =>
    rw [isAfter] at ends
    exact absurd (Option.some.inj ends) more
  | cons next after =>
    rw [isAfter, List.length_cons] at size
    exact ⟨count - 2, by omega⟩

theorem advance (fits : here.Fits bounded count) : here.advance.Fits bounded count := by
  obtain ⟨size, before, ends, shown⟩ := fits
  rw [Cursor.advance]
  cases isAfter : here.after with
  | nil =>
    rw [Cursor.size, isAfter] at size
    rw [isAfter] at ends shown
    exact ⟨size, shown _ List.mem_cons_self, ends, shown⟩
  | cons next after =>
    rw [Cursor.size, isAfter] at size
    rw [isAfter] at ends shown
    obtain ⟨current, shown⟩ := List.forall_mem_cons.mp shown
    rw [List.getLast?_cons_cons] at ends
    exact ⟨Nat.le_of_succ_le size, current, ends, shown⟩

/-- Where there is room for another token, one less is left behind the current one. -/
theorem advance_lt (fits : here.Fits bounded (n + 2)) : here.advance.Fits bounded (n + 1) := by
  refine ⟨?_, fits.advance.before, fits.advance.whole⟩
  have size := fits.size
  rw [Cursor.advance]
  cases isAfter : here.after with
  | nil => exact Nat.succ_le_succ (Nat.zero_le n)
  | cons next after =>
    rw [Cursor.size, isAfter] at size
    exact Nat.le_of_succ_le_succ size

end Cursor.Fits

/-- Reading is calm and comes to a place with at most so many tokens. -/
def ReadsCalm (bounded : Bool) (count : Nat) {α : Type} (parsed : Parsing (α × Cursor)) : Prop :=
  CalmOutcome bounded (fun found => found.2.Fits bounded count) parsed

/-- Moving is calm and comes to a place with at most so many tokens. -/
def MovesCalm (bounded : Bool) (count : Nat) (parsed : Parsing Cursor) : Prop :=
  CalmOutcome bounded (fun here => here.Fits bounded count) parsed

variable {α : Type} {holds : α → Prop}

theorem ReadsCalm.succ {parsed : Parsing (α × Cursor)} (calm : ReadsCalm bounded n parsed) :
    ReadsCalm bounded (n + 1) parsed :=
  CalmOutcome.mono calm fun _ fits => fits.mono (Nat.le_succ n)

theorem Cursor.refuse_calm (fits : here.Fits bounded count) (words : String) :
    CalmOutcome bounded holds (here.refuse words : Parsing α) := fits.current

theorem Cursor.refuseFor_calm (fits : here.Fits bounded count) (expected : String) :
    CalmOutcome bounded holds (here.refuseFor expected : Parsing α) := by
  rw [Cursor.refuseFor]
  split
  · exact fun _ => rfl
  · exact here.refuse_calm fits _

theorem Cursor.expect_calm (fits : here.Fits bounded count) (kind : TokenKind) :
    MovesCalm bounded count (here.expect kind) := by
  rw [Cursor.expect]
  split
  · exact fits.advance
  · exact here.refuseFor_calm fits _

theorem Cursor.expect_calm_lt (fits : here.Fits bounded (n + 2)) (kind : TokenKind) :
    MovesCalm bounded (n + 1) (here.expect kind) := by
  rw [Cursor.expect]
  split
  · exact fits.advance_lt
  · exact here.refuseFor_calm fits _

theorem sliceParts_calm (bound colons : Nat) (parts : Option Int × Option Int × Option Int)
    (fits : here.Fits bounded count) :
    ReadsCalm bounded count (sliceParts bound colons parts here) := by
  induction bound generalizing colons parts here with
  | zero => exact here.refuse_calm fits _
  | succ bound ih =>
    rw [sliceParts]
    split
    · exact fits
    · split
      · exact here.refuse_calm fits _
      · exact ih _ _ fits.advance
    · exact ih _ _ fits.advance
    · exact here.refuse_calm fits _

theorem bracketed_calm (fits : here.Fits bounded (n + 2)) :
    ReadsCalm bounded (n + 1) (bracketed here) := by
  rw [bracketed]
  split
  · exact (sliceParts_calm _ _ _ fits).bind fun _ fits => (Cursor.expect_calm_lt fits _).bind
      fun _ fits => fits
  · exact (Cursor.expect_calm fits.advance_lt _).bind fun _ fits => fits

/-! ### Parts side by side -/

variable {read onward : Cursor → Parsing (Query × Cursor)}

theorem operators_calm {operator : Query → Cursor → Parsing (Query × Cursor)} (power : Nat)
    (each : ∀ left here, here.Fits bounded count → here.kind ≠ .eof →
      ReadsCalm bounded count (operator left here)) (bound : Nat) (left : Query)
    (fits : here.Fits bounded count) :
    ReadsCalm bounded count (operators operator power bound left here) := by
  induction bound generalizing left here with
  | zero => exact here.refuse_calm fits _
  | succ bound ih =>
    rw [operators]
    split
    · rename_i binds
      refine (each left here fits fun isEnd => ?_).bind fun _ fits => ih _ fits
      rw [isEnd] at binds
      exact Nat.not_lt_zero _ binds
    · exact fits

theorem items_calm (each : ∀ here, here.Fits bounded count → ReadsCalm bounded count (read here))
    (bound : Nat) (found : List Query) (fits : here.Fits bounded count) :
    ReadsCalm bounded count (items read bound found here) := by
  induction bound generalizing found here with
  | zero => exact here.refuse_calm fits _
  | succ bound ih =>
    rw [items]
    refine (each here fits).bind fun _ fits => ?_
    dsimp only
    split
    · exact fits.advance
    · exact (Cursor.expect_calm fits _).bind fun _ fits => ih _ fits

theorem members_calm (each : ∀ here, here.Fits bounded count → ReadsCalm bounded count (read here))
    (bound : Nat) (found : List (String × Query)) (fits : here.Fits bounded count) :
    ReadsCalm bounded count (members read bound found here) := by
  induction bound generalizing found here with
  | zero => exact here.refuse_calm fits _
  | succ bound ih =>
    rw [members]
    split
    · refine (Cursor.expect_calm fits.advance _).bind fun _ fits =>
        (each _ fits).bind fun _ fits => ?_
      dsimp only
      split
      · exact fits.advance
      · exact ih _ fits.advance
      · exact ih _ fits
    · exact here.refuseFor_calm fits _

theorem arguments_calm
    (each : ∀ here, here.Fits bounded count → ReadsCalm bounded count (read here))
    (bound : Nat) (found : List Query) (fits : here.Fits bounded count) :
    ReadsCalm bounded count (arguments read bound found here) := by
  induction bound generalizing found here with
  | zero => exact here.refuse_calm fits _
  | succ bound ih =>
    rw [arguments]
    split
    · exact fits.advance
    · refine (each here fits).bind fun _ fits => ?_
      dsimp only
      split
      · exact ih _ fits.advance
      · exact ih _ fits

theorem filter_calm (left : Query) (first : ReadsCalm bounded count (read here))
    (second : ∀ here, here.Fits bounded count → ReadsCalm bounded count (onward here)) :
    ReadsCalm bounded count (filter read onward left here) := by
  rw [filter]
  refine first.bind fun _ fits => (Cursor.expect_calm fits _).bind fun here fits => ?_
  dsimp only
  split
  · exact fits
  · exact (second here fits).bind fun _ fits => fits

/-! ### Parts inside each other -/

/-- What is asked of all that read a query, for some room. An expression leaves fewer tokens than it
finds, and from there to the next one inside of it two more readers may be needed. -/
structure ReadersCalm (bounded : Bool) (room : Nat) : Prop where
  expression {n : Nat} {here : Cursor} (power : Nat) : here.Fits bounded (n + 1) →
    (bounded → 3 * n + 2 ≤ room) → ReadsCalm bounded n (expression room power here)
  operand {n : Nat} {here : Cursor} (token : Token) : token.IsShown bounded → token.kind ≠ .eof →
    here.Fits bounded (n + 1) → (bounded → 3 * n + 4 ≤ room) →
    ReadsCalm bounded (n + 1) (operand room token here)
  operator {n : Nat} {here : Cursor} (left : Query) : here.Fits bounded (n + 2) →
    (bounded → 3 * n + 4 ≤ room) → ReadsCalm bounded (n + 1) (operator room left here)
  compared {n : Nat} {here : Cursor} (relation : Relation) (power : Nat) (left : Query) :
    here.Fits bounded (n + 1) → (bounded → 3 * n + 3 ≤ room) →
    ReadsCalm bounded (n + 1) (compared room relation power left here)
  sliced {n : Nat} {here : Cursor} (left part : Query) : here.Fits bounded (n + 1) →
    (bounded → 3 * n + 4 ≤ room) → ReadsCalm bounded (n + 1) (sliced room left part here)
  filtered {n : Nat} {here : Cursor} : here.Fits bounded (n + 1) → (bounded → 3 * n + 3 ≤ room) →
    ReadsCalm bounded (n + 1) (filtered room here)
  projected {n : Nat} {here : Cursor} (power : Nat) : here.Fits bounded (n + 1) →
    (bounded → 3 * n + 3 ≤ room) → ReadsCalm bounded (n + 1) (projected room power here)
  member {n : Nat} {here : Cursor} (power : Nat) : here.Fits bounded (n + 1) →
    (bounded → 3 * n + 3 ≤ room) → ReadsCalm bounded (n + 1) (member room power here)
  itemList {n : Nat} {here : Cursor} : here.Fits bounded (n + 1) → (bounded → 3 * n + 3 ≤ room) →
    ReadsCalm bounded (n + 1) (itemList room here)
  memberList {n : Nat} {here : Cursor} : here.Fits bounded (n + 1) → (bounded → 3 * n + 3 ≤ room) →
    ReadsCalm bounded (n + 1) (memberList room here)

theorem readsCalm_tooDeep {need : Nat} {parsed : Parsing (α × Cursor)} (isDeep : parsed = tooDeep)
    (enough : bounded → need + 1 ≤ 0) : ReadsCalm bounded count parsed := by
  rw [isDeep]
  exact ⟨Bool.eq_false_iff.mpr fun bounds => Nat.not_succ_le_zero _ (enough bounds), rfl⟩

theorem readersCalm_zero (bounded : Bool) : ReadersCalm bounded 0 where
  expression _ _ enough := readsCalm_tooDeep (by rw [Query.expression]) enough
  operand _ _ _ _ enough := readsCalm_tooDeep (by rw [Query.operand]) enough
  operator _ _ enough := readsCalm_tooDeep (by rw [Query.operator]) enough
  compared _ _ _ _ enough := readsCalm_tooDeep (by rw [Query.compared]) enough
  sliced _ _ _ enough := readsCalm_tooDeep (by rw [Query.sliced]) enough
  filtered _ enough := readsCalm_tooDeep (by rw [Query.filtered]) enough
  projected _ _ enough := readsCalm_tooDeep (by rw [Query.projected]) enough
  member _ _ enough := readsCalm_tooDeep (by rw [Query.member]) enough
  itemList _ enough := readsCalm_tooDeep (by rw [Query.itemList]) enough
  memberList _ enough := readsCalm_tooDeep (by rw [Query.memberList]) enough

variable {room : Nat}

namespace ReadersCalm

/-- An expression that begins with the end token is incomplete, whatever room there is. -/
theorem expression_succ (ih : ReadersCalm bounded room) (power : Nat)
    (fits : here.Fits bounded (n + 1)) (enough : bounded → 3 * n + 2 ≤ room + 1) :
    ReadsCalm bounded n (Query.expression (room + 1) power here) := by
  rw [Query.expression]
  by_cases isEnd : here.kind = .eof
  · cases room with
    | zero =>
      have deep : Query.operand 0 here.current here.advance = tooDeep := by rw [Query.operand]
      rw [deep]
      refine ⟨Bool.eq_false_iff.mpr fun bounds => ?_, rfl⟩
      have := enough bounds
      omega
    | succ room =>
      have incomplete : Query.operand (room + 1) here.current here.advance =
          .error (.refusal .incomplete) := by
        rw [Query.operand]
        simp only [show here.current.kind = .eof from isEnd]
      rw [incomplete]
      exact fun _ => rfl
  · obtain ⟨k, same⟩ := fits.exists_after isEnd
    obtain rfl : n = k + 1 := Nat.succ.inj same
    refine (ih.operand here.current fits.current isEnd fits.advance_lt
      (fun bounds => by have := enough bounds; omega)).bind fun found fits => ?_
    refine operators_calm power (fun left here fits more => ?_) _ _ fits
    obtain ⟨m, same⟩ := fits.exists_after more
    obtain rfl : k = m + 1 := Nat.succ.inj same
    exact (ih.operator left fits fun bounds => by have := enough bounds; omega).succ

theorem operand_succ (ih : ReadersCalm bounded room) (token : Token)
    (shown : token.IsShown bounded) (more : token.kind ≠ .eof) (fits : here.Fits bounded (n + 1))
    (enough : bounded → 3 * n + 4 ≤ room + 1) :
    ReadsCalm bounded (n + 1) (Query.operand (room + 1) token here) := by
  have room' (bounds : bounded) : 3 * n + 3 ≤ room := Nat.le_of_succ_le_succ (enough bounds)
  have expression {here : Cursor} (power : Nat) (fits : here.Fits bounded (n + 1)) :=
    (ih.expression power fits fun bounds => Nat.le_of_succ_le (room' bounds)).succ
  have projected {here : Cursor} (power : Nat) (fits : here.Fits bounded (n + 1)) :=
    ih.projected power fits room'
  unfold Query.operand
  dsimp only
  split
  · exact fits
  · exact fits
  · split
    · exact fits.current
    · exact fits
  · split
    · exact fits
    · exact (projected _ fits).bind fun _ fits => fits
  · exact ih.filtered fits room'
  · exact ih.memberList fits room'
  · exact (expression _ fits).bind fun _ fits =>
      (Cursor.expect_calm fits _).bind fun _ fits => fits
  · exact (projected _ fits).bind fun _ fits => fits
  · exact (expression _ fits).bind fun _ fits => fits
  · split
    · rename_i isPosition
      obtain ⟨k, same⟩ := fits.exists_after fun isEnd => by simp [isEnd] at isPosition
      obtain rfl : n = k + 1 := Nat.succ.inj same
      refine (bracketed_calm fits).bind fun _ fits => (ih.sliced _ _ fits fun bounds => ?_).succ
      have := room' bounds
      omega
    · split
      · exact (projected _ fits.advance.advance).bind fun _ fits => fits
      · exact ih.itemList fits room'
  · exact fits
  · exact (expression _ fits).bind fun _ fits => fits
  · exact absurd ‹_› more
  · exact shown

theorem operator_succ (ih : ReadersCalm bounded room) (left : Query)
    (fits : here.Fits bounded (n + 2)) (enough : bounded → 3 * n + 4 ≤ room + 1) :
    ReadsCalm bounded (n + 1) (Query.operator (room + 1) left here) := by
  have room' (bounds : bounded) : 3 * n + 3 ≤ room := Nat.le_of_succ_le_succ (enough bounds)
  have next := fits.advance_lt
  have expression {here : Cursor} (power : Nat) (fits : here.Fits bounded (n + 1)) :=
    (ih.expression power fits fun bounds => Nat.le_of_succ_le (room' bounds)).succ
  have projected {here : Cursor} (power : Nat) (fits : here.Fits bounded (n + 1)) :=
    ih.projected power fits room'
  unfold Query.operator
  dsimp only
  split
  · split
    · exact (projected _ next.advance).bind fun _ fits => fits
    · exact (ih.member _ next room').bind fun _ fits => fits
  · exact (expression _ next).bind fun _ fits => fits
  · exact (expression _ next).bind fun _ fits => fits
  · exact (expression _ next).bind fun _ fits => fits
  · split
    · exact (arguments_calm (fun _ fits => expression 0 fits) _ _ next).bind fun _ fits => fits
    · exact fits.before
  · exact filter_calm left (expression 0 next) fun _ fits => projected _ fits
  · exact (projected _ next).bind fun _ fits => fits
  · split
    · rename_i isPosition
      obtain ⟨k, same⟩ := next.exists_after fun isEnd => by simp [isEnd] at isPosition
      obtain rfl : n = k + 1 := Nat.succ.inj same
      refine (bracketed_calm next).bind fun _ fits => ReadsCalm.succ ?_
      split
      · exact fits
      · refine ih.sliced _ _ fits fun bounds => ?_
        have := room' bounds
        omega
    · exact (Cursor.expect_calm next _).bind fun _ fits => (Cursor.expect_calm fits _).bind
        fun _ fits => (projected _ fits).bind fun _ fits => fits
  · split
    · exact ih.compared _ _ _ next room'
    · exact here.refuse_calm fits _

theorem projected_succ (ih : ReadersCalm bounded room) (power : Nat)
    (fits : here.Fits bounded (n + 1)) (enough : bounded → 3 * n + 3 ≤ room + 1) :
    ReadsCalm bounded (n + 1) (Query.projected (room + 1) power here) := by
  rw [Query.projected]
  split
  · exact fits
  · split
    · exact (ih.expression power fits fun bounds => Nat.le_of_succ_le_succ (enough bounds)).succ
    · split
      · rename_i isDot
        obtain ⟨k, same⟩ := fits.exists_after fun isEnd => by simp [isEnd] at isDot
        obtain rfl : n = k + 1 := Nat.succ.inj same
        refine (ih.member power fits.advance_lt fun bounds => ?_).succ
        have := enough bounds
        omega
      · exact here.refuse_calm fits _

theorem member_succ (ih : ReadersCalm bounded room) (power : Nat)
    (fits : here.Fits bounded (n + 1)) (enough : bounded → 3 * n + 3 ≤ room + 1) :
    ReadsCalm bounded (n + 1) (Query.member (room + 1) power here) := by
  have expression : ReadsCalm bounded (n + 1) (Query.expression room power here) :=
    (ih.expression power fits fun bounds => Nat.le_of_succ_le_succ (enough bounds)).succ
  -- a bracket or a brace is passed before the parts are read
  have inside (more : here.kind ≠ .eof) : ∃ k, n = k + 1 ∧ here.advance.Fits bounded (k + 1) ∧
      (bounded → 3 * k + 3 ≤ room) := by
    obtain ⟨k, same⟩ := fits.exists_after more
    obtain rfl : n = k + 1 := Nat.succ.inj same
    exact ⟨k, rfl, fits.advance_lt, fun bounds => by have := enough bounds; omega⟩
  unfold Query.member
  split
  · exact expression
  · exact expression
  · exact expression
  · rename_i isBracket
    obtain ⟨k, rfl, fits, room'⟩ := inside (by simp [isBracket])
    exact (ih.itemList fits room').succ
  · rename_i isBrace
    obtain ⟨k, rfl, fits, room'⟩ := inside (by simp [isBrace])
    exact (ih.memberList fits room').succ
  · exact here.refuse_calm fits _

end ReadersCalm

/-- Each of the readers refuses what it reads itself for a reason that can be told, and leaves the
rest to others with less room. -/
theorem readersCalm_succ (ih : ReadersCalm bounded room) : ReadersCalm bounded (room + 1) where
  expression power fits enough := ih.expression_succ power fits enough
  operand token shown more fits enough := ih.operand_succ token shown more fits enough
  operator left fits enough := ih.operator_succ left fits enough
  compared relation power left fits enough := by
    rw [Query.compared]
    exact (ih.expression power fits fun bounds => Nat.le_of_succ_le_succ (enough bounds)).bind
      fun _ fits => fits.mono (Nat.le_succ _)
  sliced left part fits enough := by
    rw [Query.sliced]
    split
    · exact (ih.projected _ fits fun bounds => Nat.le_of_succ_le_succ (enough bounds)).bind
        fun _ fits => fits
    · exact fits
  filtered {n here} fits enough := by
    rw [Query.filtered]
    refine (filter_calm .current (ih.expression 0 fits fun bounds =>
      Nat.le_of_succ_le_succ (enough bounds)) fun here fits => ?_).succ
    obtain ⟨k, rfl⟩ : ∃ k, n = k + 1 := ⟨n - 1, by have := fits.pos; omega⟩
    exact ih.projected _ fits fun bounds => by have := enough bounds; omega
  projected power fits enough := ih.projected_succ power fits enough
  member power fits enough := ih.member_succ power fits enough
  itemList fits enough := by
    rw [Query.itemList]
    exact items_calm (fun _ fits => (ih.expression 0 fits fun bounds =>
      Nat.le_of_succ_le_succ (enough bounds)).succ) _ _ fits
  memberList fits enough := by
    rw [Query.memberList]
    exact members_calm (fun _ fits => (ih.expression 0 fits fun bounds =>
      Nat.le_of_succ_le_succ (enough bounds)).succ) _ _ fits

theorem readersCalm (bounded : Bool) (room : Nat) : ReadersCalm bounded room := by
  induction room with
  | zero => exact readersCalm_zero bounded
  | succ room ih => exact readersCalm_succ ih

/-! ### Whole texts -/

theorem ofTokens_calm {tokens : List Token} (whole : AreWhole bounded tokens)
    (enough : bounded → 3 * tokens.length ≤ Room.parsing + 5) :
    CalmOutcome bounded (fun _ => True) (ofTokens tokens) := by
  cases tokens with
  | nil => cases whole.ends
  | cons first after =>
    have fits : Cursor.Fits bounded (after.length + 1) ⟨first, first, after⟩ :=
      ⟨Nat.le_refl _, whole.shown _ List.mem_cons_self, whole⟩
    rw [ofTokens]
    refine ((readersCalm bounded _).expression 0 fits fun bounds => ?_).bind fun _ fits => ?_
    · have := enough bounds
      rw [List.length_cons] at this
      omega
    · dsimp only
      split
      · exact trivial
      · exact Cursor.refuse_calm fits _

/-- Reading a short text as a query is calm. -/
theorem parse_calm {text : String} (short : IsShort bounded text.length)
    (enough : bounded → 3 * text.length ≤ Room.parsing + 2) :
    CalmOutcome bounded (fun _ => True) (parse text) := by
  rw [← String.length_toList] at short enough
  have calm := tokensFrom_calm text.toList.length short (Nat.lt_succ_self _)
  unfold parse
  dsimp only
  split
  · exact fun _ => rfl
  · rw [tokens]
    cases isTokens : tokensFrom text.toList.length (text.toList.length + 1) text.toList with
    | error failure =>
      rw [isTokens] at calm
      obtain ⟨fault, rest⟩ := failure
      cases fault with
      | numeral fault =>
        obtain ⟨unbounded, digits, rfl⟩ := calm
        exact ⟨unbounded, rfl⟩
      | tooDeep kind => exact ⟨calm, rfl⟩
      | _ => exact fun _ => rfl
    | ok found =>
      rw [isTokens] at calm
      exact ofTokens_calm calm.2 fun bounds => by have := enough bounds; have := calm.1; omega

end TemplateFill.Query
