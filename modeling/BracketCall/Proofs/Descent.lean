import BracketCall.Proofs.Reading

/-!
# The descent of the parser

The parser descends by three readers that call each other and share one cursor: a statement may
begin a construct, a construct may hold arguments, and the arguments are read by a loop without a
condition, one statement in each round.  Here the readers are written in that form, as steps on a
tape: the cursor, and a record of the tokens that it handed out.  A reading that fails leaves the
tape where it stopped.

Nothing in this form makes a reading end.  Every way from a reader back to itself leads through a
round of the loop over arguments, so it is these rounds whose depth is bounded: a round may lie
inside another, among the arguments of a call, or behind it.  A reading that would go deeper than
its bound has no answer.

**Method.**  `Ends` says that a reading has an answer, and that it is the answer of the parser.  It
is shown of each reader from those that it calls.  A round takes a token before it leads to another,
so the tokens that are left bound the depth.

**Results.**
* `construct_ends`, `statement_ends`: a reader ends if the reader of arguments that it calls does.
* `argumentsWithin_ends`, `statementsWithin_ends`: a depth of as many rounds as tokens are left is
  enough.
-/

namespace BracketCall
namespace Descent

variable {α β : Type}

/-! ## Readings of a tape -/

/-- A cursor, and the tokens that it has handed out, each with its index. -/
structure Tape where
  cursor : Cursor
  taken : List (Token × Nat)

/-- A tape at a position of a row of tokens, before anything is taken from it. -/
def Tape.startAt (tokens : List Token) (position : Nat) : Tape :=
  { cursor := { position := position, rest := tokens.drop position }, taken := [] }

theorem Tape.length_rest_startAt (tokens : List Token) (position : Nat) :
    (startAt tokens position).cursor.rest.length = tokens.length - position :=
  List.length_drop

/-- What is read from a tape: a result or a fault, and the tape that is left in either case.  There
is no answer if the reading goes too deep. -/
abbrev Reading := ExceptT Fault (StateT Tape Option)

/-- A call that goes too deep. -/
def exhausted : Reading α :=
  fun _ => none

/-- Takes a token, if one is left. -/
def next : Reading (Option Token) := fun s =>
  match s.cursor.next with
  | (none, c) => some (.ok none, { s with cursor := c })
  | (some t, c) =>
      some (.ok (some t), { cursor := c, taken := s.taken ++ [(t, s.cursor.position)] })

/-- Fails at the token that was taken last. -/
def refuse (fault : Nat → Fault) : Reading α := do
  throw (fault (← get).cursor.index.toNat)

/-- Fails at the end of the tokens. -/
def breakOff (fault : Nat → Fault) : Reading α := do
  throw (fault (← get).cursor.position)

/-- Takes a token that has to be there. -/
def expect (what : Expectation) : Reading Token := do
  match ← next with
  | some t => return t
  | none => breakOff (.unexpectedEnd what)

/-! ## The three readers

Each is given the reader of arguments that it calls. -/

/-- Takes the second bracket of a closing pair. -/
def closing : Reading Unit := do
  match ← next with
  | some t => if t.isMark .closing then return () else refuse (.expectedClosing (some t))
  | none => breakOff (.expectedClosing none)

/-- Takes the token behind a name, which tells a call from a reference. -/
def afterName (name : String) : Reading Parser.Head := do
  let x ← expect .separatorOrClosing
  if x.isMark .separator then return .call name
  else if x.isMark .closing then return .reference name
  else refuse (.unexpectedToken x)

/-- Takes the first half of a construct, behind its first bracket. -/
def heading : Reading Parser.Head := do
  let o ← expect .opening
  if o.isMark .opening then
    let n ← expect .name
    if n.kind = .word then afterName n.text
    else refuse (.unexpectedToken n)
  else refuse (.expectedOpening o)

/-- Takes the second half of a construct. -/
def ending (arguments : Reading (List Tree)) : Parser.Head → Reading Tree
  | .call name => do
      let args ← arguments
      closing
      return .call name args
  | .reference name => do
      closing
      return .reference name

/-- Reads a construct, behind its first bracket. -/
def construct (arguments : Reading (List Tree)) : Reading Tree := do
  ending arguments (← heading)

/-- Reads a statement whose first token was already taken. -/
def statement (arguments : Reading (List Tree)) (first : Token) : Reading Tree :=
  if first.isMark .opening then construct arguments
  else
    match first.kind with
    | .word => return .word first.text
    | .literal => return .literal first.text
    | _ => refuse (.unexpectedToken first)

/-- Reads a statement whose first token was already taken, and then more of them. -/
def statementThen (arguments more : Reading (List Tree)) (first : Token) :
    Reading (List Tree) := do
  let tree ← statement arguments first
  let trees ← more
  return tree :: trees

/-- A round of the loop over arguments.  One separator may stand before each argument.  The rounds
inside this one and those behind it are `inner`. -/
def argumentRound (inner : Reading (List Tree)) : Reading (List Tree) := do
  match ← next with
  | none => breakOff (.unexpectedEnd .argumentOrClosing)
  | some t =>
      if t.isMark .closing then return []
      else if t.isMark .separator then statementThen inner inner (← expect .argument)
      else statementThen inner inner t

/-- A round of the loop over the statements of a program. -/
def statementRound (arguments more : Reading (List Tree)) : Reading (List Tree) := do
  match ← next with
  | none => return []
  | some t => statementThen arguments more t

/-- Reads arguments.  Below the first round there may be others, to a depth of `bound`. -/
def argumentsWithin : Nat → Reading (List Tree)
  | 0 => argumentRound exhausted
  | bound + 1 => argumentRound (argumentsWithin bound)

/-- Reads a construct, within the same bound. -/
def constructWithin (bound : Nat) : Reading Tree :=
  construct (argumentsWithin bound)

/-- Reads a statement whose first token was already taken, within the same bound. -/
def statementWithin (first : Token) (bound : Nat) : Reading Tree :=
  statement (argumentsWithin bound) first

/-- Reads the statements of a program.  Here the rounds of both loops count. -/
def statementsWithin : Nat → Reading (List Tree)
  | 0 => statementRound exhausted exhausted
  | bound + 1 => statementRound (argumentsWithin bound) (statementsWithin bound)

/-- Reads a program, within the same bound. -/
def programWithin (bound : Nat) : Reading Tree := do
  return .program (← statementsWithin bound)

/-! ## Equations -/

theorem bind_apply (x : Reading α) (f : α → Reading β) (s : Tape) :
    (x >>= f) s =
      match x s with
      | some (.ok a, d) => f a d
      | some (.error e, d) => some (.error e, d)
      | none => none := by
  show (x s >>= _) = _
  rcases x s with _ | ⟨e | a, d⟩
  · rfl
  · rfl
  · rfl

theorem refuse_apply (fault : Nat → Fault) (p : Nat) (ts : List Token)
    (taken : List (Token × Nat)) :
    (refuse fault : Reading α) ⟨⟨p + 1, ts⟩, taken⟩ =
      some (.error (fault p), ⟨⟨p + 1, ts⟩, taken⟩) := by
  have hindex : Cursor.index ⟨p + 1, ts⟩ = p := by
    simp [Cursor.index]
  show some (Except.error (fault (Cursor.index ⟨p + 1, ts⟩).toNat), _) = _
  rw [hindex]
  rfl

section Statement

variable {arguments : Reading (List Tree)} {t : Token}

theorem statement_opening (ht : t.isMark .opening = true) :
    statement arguments t = construct arguments := by
  rw [statement, if_pos ht]

theorem statement_word (ht : t.kind = .word) : statement arguments t = pure (.word t.text) := by
  have ho := Token.not_isMark_of_kind ht (by decide) .opening
  simp [statement, ho, ht]

theorem statement_literal (ht : t.kind = .literal) :
    statement arguments t = pure (.literal t.text) := by
  have ho := Token.not_isMark_of_kind ht (by decide) .opening
  simp [statement, ho, ht]

/-- Any other token is refused. -/
theorem statement_other (ho : t.isMark .opening = false) (hw : t.kind ≠ .word)
    (hl : t.kind ≠ .literal) : statement arguments t = refuse (.unexpectedToken t) := by
  cases hk : t.kind with
  | mark => simp [statement, ho, hk]
  | ending => simp [statement, ho, hk]
  | word => exact absurd hk hw
  | literal => exact absurd hk hl

end Statement

/-! ## Readings end as the parser does -/

/-- The reading ends on this tape, with the given answer of the parser: the same result and the same
cursor behind it, or the same fault. -/
def Ends (x : Reading α) (s : Tape) (answer : Except Fault (α × Cursor)) : Prop :=
  ∃ result d, x s = some (result, d) ∧ answer = result.map fun a => (a, d.cursor)

namespace Ends

theorem bind {x : Reading α} {f : α → Reading β} {s : Tape}
    {answer : Except Fault (α × Cursor)} {g : α × Cursor → Except Fault (β × Cursor)}
    (hx : Ends x s answer)
    (hf : ∀ a d, answer = .ok (a, d.cursor) → Ends (f a) d (g (a, d.cursor))) :
    Ends (x >>= f) s (answer >>= g) := by
  obtain ⟨_ | a, d, hxs, rfl⟩ := hx
  · exact ⟨_, d, by rw [bind_apply, hxs], rfl⟩
  · obtain ⟨result, e, hfd, hg⟩ := hf a d rfl
    exact ⟨result, e, by rw [bind_apply, hxs]; exact hfd, hg⟩

theorem pure (a : α) (s : Tape) : Ends (Pure.pure a) s (.ok (a, s.cursor)) :=
  ⟨.ok a, s, rfl, rfl⟩

section Steps

variable {p : Nat} {t : Token} {ts : List Token} {taken : List (Token × Nat)}
variable {answer : Except Fault (α × Cursor)}

theorem refuse {fault : Nat → Fault} (h : answer = .error (fault p)) :
    Ends (refuse fault) ⟨⟨p + 1, ts⟩, taken⟩ answer :=
  ⟨.error (fault p), _, refuse_apply fault p ts taken, h⟩

theorem next_cons {f : Option Token → Reading α}
    (h : Ends (f (some t)) ⟨⟨p + 1, ts⟩, taken ++ [(t, p)]⟩ answer) :
    Ends (next >>= f) ⟨⟨p, t :: ts⟩, taken⟩ answer :=
  h

theorem expect_nil {what : Expectation} {f : Token → Reading α}
    (h : answer = .error (.unexpectedEnd what p)) :
    Ends (expect what >>= f) ⟨⟨p, []⟩, taken⟩ answer :=
  ⟨.error (.unexpectedEnd what p), _, rfl, h⟩

theorem expect_cons {what : Expectation} {f : Token → Reading α}
    (h : Ends (f t) ⟨⟨p + 1, ts⟩, taken ++ [(t, p)]⟩ answer) :
    Ends (expect what >>= f) ⟨⟨p, t :: ts⟩, taken⟩ answer :=
  h

end Steps
end Ends

theorem afterName_ends {p : Nat} {o n : Token} (ho : o.isMark .opening = true)
    (hn : n.kind = .word) (ts : List Token) (taken : List (Token × Nat)) :
    Ends (afterName n.text) ⟨⟨p + 2, ts⟩, taken⟩ (Parser.readHead ⟨p, o :: n :: ts⟩) := by
  cases ts with
  | nil =>
      refine .expect_nil ?_
      simp [Parser.readHead, Parser.plain, Parser.head, ho, hn, Except.map]
  | cons x ts =>
      refine .expect_cons ?_
      by_cases hs : x.isMark .separator = true
      · rw [if_pos hs, Parser.readHead_call ho hn hs]
        exact .pure _ _
      · rw [if_neg hs]
        by_cases hc : x.isMark .closing = true
        · rw [if_pos hc, Parser.readHead_reference ho hn hc]
          exact .pure _ _
        · rw [if_neg hc]
          refine .refuse ?_
          simp [Parser.readHead, Parser.plain, Parser.head, ho, hn, hs, hc, Except.map]

theorem heading_ends (s : Tape) : Ends heading s (Parser.readHead s.cursor) := by
  obtain ⟨⟨p, ts⟩, taken⟩ := s
  cases ts with
  | nil => exact .expect_nil rfl
  | cons o ts =>
      refine .expect_cons ?_
      by_cases ho : o.isMark .opening = true
      · rw [if_pos ho]
        cases ts with
        | nil =>
            refine .expect_nil ?_
            simp [Parser.readHead, Parser.plain, Parser.head, ho, Except.map]
        | cons n ts =>
            refine .expect_cons ?_
            by_cases hn : n.kind = .word
            · rw [if_pos hn]
              exact afterName_ends ho hn ts _
            · rw [if_neg hn]
              refine .refuse ?_
              simp [Parser.readHead, Parser.plain, Parser.head, ho, hn, Except.map]
      · rw [if_neg ho]
        refine .refuse ?_
        simp [Parser.readHead, Parser.plain, Parser.head, ho, Except.map]

theorem closing_ends (s : Tape) :
    Ends closing s ((fun c => ((), c)) <$> Parser.readClosing s.cursor) := by
  obtain ⟨⟨p, ts⟩, taken⟩ := s
  cases ts with
  | nil => exact ⟨_, _, rfl, rfl⟩
  | cons t ts =>
      refine .next_cons ?_
      by_cases ht : t.isMark .closing = true
      · simp only [ht, if_true, Parser.readClosing_mark ht]
        exact .pure _ _
      · simp only [ht]
        refine .refuse ?_
        simp [Parser.readClosing, Parser.closing, ht, Functor.map, Except.map]

/-- A construct ends behind the second bracket that closes it. -/
theorem closing_return_ends (tree : Tree) (s : Tape) :
    Ends (do closing; return tree) s (do
      let c ← Parser.readClosing s.cursor
      return (tree, c)) := by
  have h := (closing_ends s).bind (f := fun _ => (return tree : Reading Tree))
    (g := fun x => .ok (tree, x.2)) fun _ d _ => .pure tree d
  rwa [bind_map_left] at h

theorem ending_ends {arguments : Reading (List Tree)} (h : Parser.Head) {s : Tape}
    (harguments : Ends arguments s (Parser.readArguments s.cursor)) :
    Ends (ending arguments h) s (Parser.readTail (h, s.cursor)) := by
  cases h with
  | reference name => exact closing_return_ends (.reference name) s
  | call name => exact harguments.bind fun args d _ => closing_return_ends (.call name args) d

/-- The reading ends as `read` does, on every tape with fewer than `n` tokens left. -/
def EndsBefore (n : Nat) (x : Reading α) (read : Cursor → Except Fault (α × Cursor)) : Prop :=
  ∀ s : Tape, s.cursor.rest.length < n → Ends x s (read s.cursor)

theorem EndsBefore.mono {n m : Nat} {x : Reading α} {read : Cursor → Except Fault (α × Cursor)}
    (h : EndsBefore n x read) (hm : m ≤ n) : EndsBefore m x read :=
  fun s hs => h s (Nat.lt_of_lt_of_le hs hm)

theorem construct_ends {arguments : Reading (List Tree)} {s : Tape}
    (harguments : EndsBefore s.cursor.rest.length arguments Parser.readArguments) :
    Ends (construct arguments) s (Parser.readHead s.cursor >>= Parser.readTail) := by
  refine (heading_ends s).bind fun h d hh => ending_ends h (harguments d ?_)
  obtain ⟨o, n, x, us, hts, -, -, hd, -⟩ := Parser.readHead_ok hh
  rw [hts, hd]
  exact Parser.length_lt_behind o n x us

theorem statement_ends {arguments : Reading (List Tree)} {ts : List Token}
    (harguments : EndsBefore ts.length arguments Parser.readArguments) (p : Nat) (first : Token)
    (taken : List (Token × Nat)) :
    Ends (statement arguments first) ⟨⟨p + 1, ts⟩, taken⟩
      (Parser.readStatement ⟨p, first :: ts⟩) := by
  rcases Parser.statement_start_cases first with ho | hw | hl | ⟨ho, hw, hl⟩
  · rw [statement_opening ho, Parser.readStatement_opening ho]
    exact construct_ends harguments
  · rw [statement_word hw, Parser.readStatement_word hw]
    exact .pure _ _
  · rw [statement_literal hl, Parser.readStatement_literal hl]
    exact .pure _ _
  · rw [statement_other ho hw hl, Parser.readStatement_other ho hw hl]
    exact .refuse rfl

/-- A statement leaves fewer tokens than there were before its first one. -/
theorem rest_shorter_of_readStatement {p : Nat} {ts : List Token} {tree : Tree} {c : Cursor}
    (h : Parser.readStatement ⟨p, ts⟩ = .ok (tree, c)) : c.rest.length < ts.length := by
  obtain ⟨phrase, hts, -, -⟩ := Parser.phrase_of_readStatement h
  exact phrase.rest_shorter hts

/-- What both loops do in a round: a statement, and then what `read` gives behind it. -/
theorem statementThen_ends {arguments more : Reading (List Tree)} {first : Token}
    {ts : List Token} {read : Cursor → Except Fault (List Tree × Cursor)}
    (harguments : EndsBefore ts.length arguments Parser.readArguments)
    (hmore : EndsBefore (first :: ts).length more read) (p : Nat) (taken : List (Token × Nat)) :
    Ends (statementThen arguments more first) ⟨⟨p + 1, ts⟩, taken⟩ (do
      let (tree, c) ← Parser.readStatement ⟨p, first :: ts⟩
      let (trees, d) ← read c
      return (tree :: trees, d)) := by
  refine (statement_ends harguments p first taken).bind fun tree d hd => ?_
  refine (hmore d (rest_shorter_of_readStatement hd)).bind fun trees e _ => ?_
  exact .pure (tree :: trees) e

/-- A round ends if the rounds below it end wherever fewer tokens are left. -/
theorem argumentRound_ends {inner : Reading (List Tree)} {s : Tape}
    (hinner : EndsBefore s.cursor.rest.length inner Parser.readArguments) :
    Ends (argumentRound inner) s (Parser.readArguments s.cursor) := by
  obtain ⟨⟨p, ts⟩, taken⟩ := s
  cases ts with
  | nil => exact ⟨_, _, rfl, Parser.readArguments_end p⟩
  | cons t ts =>
      have hless := hinner.mono (Nat.le_succ ts.length)
      refine .next_cons ?_
      by_cases hc : t.isMark .closing = true
      · simp only [hc, if_true, Parser.readArguments_closing hc]
        exact .pure _ _
      · by_cases hs : t.isMark .separator = true
        · simp only [hc, hs, if_true]
          rw [Parser.readArguments_separator hs]
          cases ts with
          | nil => exact .expect_nil rfl
          | cons u us =>
              -- Two tokens are taken before the argument is read, so both bounds have room.
              refine .expect_cons ?_
              exact statementThen_ends (hless.mono (Nat.le_succ us.length)) hless (p + 1) _
        · simp only [hc, hs]
          rw [Parser.readArguments_other (by simpa using hc) (by simpa using hs)]
          exact statementThen_ends hless hinner p _

/-- A depth of as many rounds as tokens are left is enough for arguments. -/
theorem argumentsWithin_ends (bound : Nat) :
    EndsBefore (bound + 1) (argumentsWithin bound) Parser.readArguments := by
  induction bound with
  | zero =>
      -- No token is left, so nothing is asked of the rounds below.
      intro s hs
      refine argumentRound_ends fun d hd => ?_
      omega
  | succ bound ih =>
      intro s hs
      exact argumentRound_ends (ih.mono (Nat.le_of_lt_succ hs))

-- A depth of one is too little for three words.
example : argumentsWithin 1 (Tape.startAt [.ofWord "a", .ofWord "b", .ofWord "c"] 0) = none := rfl

/-- The statements of a program as the parser reads them, with the cursor behind the last token. -/
def readStatements (c : Cursor) : Except Fault (List Tree × Cursor) :=
  (Parser.statements c.position c.rest).map fun trees =>
    (trees, ⟨c.position + c.rest.length, []⟩)

theorem readStatements_nil (p : Nat) : readStatements ⟨p, []⟩ = .ok ([], ⟨p, []⟩) := by
  simp [readStatements, Parser.statements, Except.map]

theorem readStatements_cons (p : Nat) (t : Token) (ts : List Token) :
    readStatements ⟨p, t :: ts⟩ = (do
      let (tree, c) ← Parser.readStatement ⟨p, t :: ts⟩
      let (trees, d) ← readStatements c
      return (tree :: trees, d)) := by
  rw [readStatements, Parser.statements_cons]
  cases hst : Parser.readStatement ⟨p, t :: ts⟩ with
  | error f => rfl
  | ok x =>
      obtain ⟨tree, c⟩ := x
      have hend : c.position + c.rest.length = p + (t :: ts).length := by
        obtain ⟨phrase, hts, -, hpos⟩ := Parser.phrase_of_readStatement hst
        rw [hts, hpos, List.length_append, Nat.add_assoc]
      simp only [readStatements, bind, Except.bind, Parser.readOn, hend]
      cases Parser.statements c.position c.rest with
      | error f => rfl
      | ok trees => rfl

theorem statementRound_ends {arguments more : Reading (List Tree)} {s : Tape}
    (harguments : EndsBefore s.cursor.rest.length arguments Parser.readArguments)
    (hmore : EndsBefore s.cursor.rest.length more readStatements) :
    Ends (statementRound arguments more) s (readStatements s.cursor) := by
  obtain ⟨⟨p, ts⟩, taken⟩ := s
  cases ts with
  | nil => exact ⟨_, _, rfl, readStatements_nil p⟩
  | cons t ts =>
      rw [readStatements_cons]
      refine .next_cons ?_
      exact statementThen_ends (harguments.mono (Nat.le_succ ts.length)) hmore p _

/-- A depth of as many rounds as tokens are left is enough for the statements of a program. -/
theorem statementsWithin_ends (bound : Nat) :
    EndsBefore (bound + 1) (statementsWithin bound) readStatements := by
  induction bound with
  | zero =>
      intro s hs
      refine statementRound_ends (fun d hd => ?_) fun d hd => ?_
      · omega
      · omega
  | succ bound ih =>
      intro s hs
      have hle := Nat.le_of_lt_succ hs
      exact statementRound_ends ((argumentsWithin_ends bound).mono hle) (ih.mono hle)

end Descent
end BracketCall
