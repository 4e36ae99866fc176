import Noxy.Proofs.FileNames
import Noxy.Proofs.LexicalErrors
import Noxy.Proofs.Reading
import Noxy.Proofs.SightHeap
import Noxy.Proofs.Spelling

/-!
# The depth of reading suffices

The readers take a bound on the depth of their recursion.  It is never reached, a larger one would
change nothing, and neither would other names of files.  A stack of bounded size changes nothing
either, unless it overflows.
-/

namespace Noxy

def Ty.isModule : Ty → Bool
  | imported _ _ => true
  | _ => false

/-- The type of a module cannot be written. -/
def Stmt.isWritable : Stmt → Bool
  | globalVar _ type _ _ => !type.isModule
  | _ => true

namespace Parser

/-! ### What readers consume -/

/-- The size of the tokens and of the texts inside their templates. -/
def weight (tokens : List Token) : Nat :=
  tokens.foldr (fun token total => size token + total) 0

theorem weight_cons : weight (token :: rest) = size token + weight rest :=
  rfl

theorem depthFor_eq (tokens : List Token) : depthFor tokens = 24 * (weight tokens + 1) := by
  have sum : tokens.foldr (fun token total => size token + total) 1 = weight tokens + 1 := by
    induction tokens with
    | nil => rfl
    | cons _ _ ih => rw [List.foldr_cons, ih, weight_cons, Nat.add_assoc]
  rw [depthFor, sum]

theorem templateSize_pos (pieces : List Piece) : 0 < templateSize pieces := by
  induction pieces with
  | nil => exact Nat.one_pos
  | cons =>
    rw [templateSize_cons]
    omega

theorem kindSize_pos (kind : TokenKind) : 0 < kindSize kind := by
  cases kind with
  | template pieces => exact templateSize_pos pieces
  | _ => exact Nat.one_pos

/-! ### What is read, and what is raised -/

/-- The text of an interpolation in one of the tokens. -/
def Holds (tokens : List Token) (source : String) : Prop :=
  ∃ token ∈ tokens, ∃ pieces format, token.kind = .template pieces ∧
    .interpolation source format ∈ pieces

/-- A text begins with an expression, and so does every text inside the templates of the expression.
What comes after it does not matter. -/
inductive BeginsExpression : String → Prop where
  | intro (tokenized : tokenize text = .ok (used ++ rest)) (deep : depthFor (used ++ rest) ≤ depth)
      (read : expression depth none (used ++ rest) = .ok (value, rest))
      (spelled : Spells value (used.map Token.kind))
      (inside : ∀ source, Holds used source → BeginsExpression source) : BeginsExpression text

def BeginExpressions (pieces : List Piece) : Prop :=
  ∀ source format, .interpolation source format ∈ pieces → BeginsExpression source

/-- A token that readers may take. -/
def Taken (kind : TokenKind) : Prop :=
  kind ≠ .eof ∧ ∀ pieces, kind = .template pieces → BeginExpressions pieces

theorem taken_of_isPlain (plain : isPlain kind = true) : Taken kind := by
  refine ⟨?_, fun _ => ?_⟩ <;> rintro rfl <;> cases plain

/-- The lists of tokens that are read: the whole list, and those of the texts inside templates. -/
inductive Stream (whole : List Token) : List Token → Prop where
  | outer : Stream whole whole
  | inner (stream : Stream whole tokens) (holds : Holds tokens source)
      (tokenized : tokenize source = .ok inside) : Stream whole inside

/-- What the parser may raise: that a token is out of place, or what is wrong with the text inside a
template. -/
inductive Raised (whole : List Token) : Failure → Prop where
  | grammar (stream : Stream whole tokens) (member : token ∈ tokens) :
      Raised whole (.error (.grammar cause token.location))
  | lexical (stream : Stream whole tokens) (holds : Holds tokens source)
      (failed : tokenize source = .error cause) : Raised whole cause

/-- One of the tokens is an end. -/
def IsEnded (tokens : List Token) : Prop :=
  ∃ token ∈ tokens, token.kind = .eof

/-- What is read, a move of places that leaves the texts inside templates where they are, and
whether the stack may overflow. -/
structure Stage where
  whole : List Token
  move : Location → Location
  fixes : ∀ {stream source inside}, Stream whole stream → Holds stream source →
    tokenize source = .ok inside → inside.map (Token.moved move) = inside
  tight : Prop

namespace Stage

variable (stage : Stage)

abbrev moved (tokens : List Token) : List Token :=
  tokens.map (Token.moved stage.move)

abbrev expr : Expr → Expr :=
  Expr.moved stage.move

abbrev exprs : List Expr → List Expr :=
  Expr.listMoved stage.move

abbrev stmts : List Stmt → List Stmt :=
  Stmt.listMoved stage.move

def unfiled (tokens : List Token) : Stage :=
  ⟨tokens, Location.unfiled, fun _ _ => map_unfiled_of_tokenize, False⟩

def Overflows {β : Type} (outcome : Except Failure β) : Prop :=
  stage.tight ∧ outcome = .error (.fault .recursion)

/-- The outcome is a failure, too, and the same one where nothing is moved, unless it overflows. -/
def Repeats {β : Type} (cause : Failure) (outcome : Except Failure β) : Prop :=
  (∃ cause', outcome = .error cause' ∧ (stage.move = id → cause' = cause)) ∨
    stage.Overflows outcome

end Stage

/-- The tokens are what is left of a list that is read. -/
structure Ahead (stage : Stage) (tokens : List Token) : Prop where
  isEnded : IsEnded tokens
  among : ∃ stream, Stream stage.whole stream ∧ tokens ⊆ stream

/--
The reader does not run out of depth, takes its tokens from the front, and leaves the end.  What it
gives and what it leaves, the other one gives and leaves without the names of files, if they are
missing in the tokens from the start, or it overflows.
-/
def Settles {α : Type} (stage : Stage) (view : α → α) (reader reader' : Reader α)
    (tokens : List Token) (post : α → List TokenKind → List Token → Prop) : Prop :=
  Ahead stage tokens →
    match reader tokens with
    | .ok (result, rest) =>
      (∃ used, tokens = used ++ rest ∧ (∀ token ∈ used, Taken token.kind) ∧
        post result (used.map Token.kind) rest) ∧
      (reader' (stage.moved tokens) = .ok (view result, stage.moved rest) ∨
        stage.Overflows (reader' (stage.moved tokens)))
    | .error cause =>
      Raised stage.whole cause ∧ stage.Repeats cause (reader' (stage.moved tokens))

theorem bind_of_error {first : Reader β} {next : β → Reader α}
    (failed : first tokens = .error cause) : (first >>= next) tokens = .error cause := by
  change Except.bind (first tokens) _ = _
  rw [failed]
  rfl

variable {stage : Stage} {tokens : List Token}

/-- There is room on the stack for a depth, or it may overflow. -/
def Roomy (stage : Stage) (depth : Nat) (room : Room) : Prop :=
  stage.tight ∨ ∀ frames ∈ room, depth ≤ frames

theorem Roomy.less (roomy : Roomy stage (depth + 1) room) : Roomy stage depth room :=
  roomy.imp_right fun large frames isRoom => Nat.le_of_succ_le (large frames isRoom)

theorem Roomy.unlimited : Roomy stage depth none :=
  .inr nofun

theorem frontKind_moved : frontKind (stage.moved tokens) = frontKind tokens := by
  cases tokens <;> rfl

theorem Ahead.rest {used rest : List Token} (ahead : Ahead stage tokens)
    (isRest : tokens = used ++ rest) (noEnd : ∀ token ∈ used, token.kind ≠ .eof) :
    Ahead stage rest := by
  subst isRest
  obtain ⟨⟨token, member, isEnd⟩, stream, isStream, among⟩ := ahead
  refine ⟨⟨token, ?_, isEnd⟩, stream, isStream, fun _ isLeft => ?_⟩
  · exact (List.mem_append.mp member).resolve_left fun isUsed => noEnd token isUsed isEnd
  · exact among (List.mem_append_right used isLeft)

theorem Ahead.all (isEnded : IsEnded stage.whole) : Ahead stage stage.whole :=
  ⟨isEnded, stage.whole, .outer, List.Subset.refl _⟩

namespace Settles

variable {α β : Type} {view : α → α} {post : α → List TokenKind → List Token → Prop}

theorem of_ok (used : List Token) (read : reader tokens = .ok (result, rest))
    (isRest : tokens = used ++ rest) (taken : ∀ token ∈ used, Taken token.kind)
    (holds : post result (used.map Token.kind) rest)
    (read' : reader' (stage.moved tokens) = .ok (view result, stage.moved rest)) :
    Settles stage view reader reader' tokens post := by
  intro _
  rw [read]
  exact ⟨⟨used, isRest, taken, holds⟩, .inl read'⟩

theorem of_eq (settles : Settles stage view other other' tokens post)
    (here : reader tokens = other tokens)
    (there : reader' (stage.moved tokens) = other' (stage.moved tokens)) :
    Settles stage view reader reader' tokens post := by
  rwa [Settles, here, there]

theorem imp (settles : Settles stage view reader reader' tokens post)
    (implies : ∀ result used rest, post result used rest → post' result used rest) :
    Settles stage view reader reader' tokens post' := by
  intro ahead
  have settled := settles ahead
  split at settled
  · obtain ⟨⟨used, isRest, taken, holds⟩, read'⟩ := settled
    exact ⟨⟨used, isRest, taken, implies _ _ _ holds⟩, read'⟩
  · exact settled

theorem read_of_ok (settles : Settles stage view reader reader' tokens post)
    (ahead : Ahead stage tokens) (read : reader tokens = .ok result) :
    (∃ used, tokens = used ++ result.2 ∧ (∀ token ∈ used, Taken token.kind) ∧
      post result.1 (used.map Token.kind) result.2) ∧
    (reader' (stage.moved tokens) = .ok (view result.1, stage.moved result.2) ∨
      stage.Overflows (reader' (stage.moved tokens))) := by
  have settled := settles ahead
  rwa [read] at settled

theorem raised_of_error (settles : Settles stage view reader reader' tokens post)
    (ahead : Ahead stage tokens) (failed : reader tokens = .error cause) :
    Raised stage.whole cause ∧ stage.Repeats cause (reader' (stage.moved tokens)) := by
  have settled := settles ahead
  rwa [failed] at settled

theorem overflow (settles : Settles stage view reader other tokens post)
    (overflows : stage.Overflows (reader' (stage.moved tokens))) :
    Settles stage view reader reader' tokens post := by
  intro ahead
  have settled := settles ahead
  split at settled
  · exact ⟨settled.1, .inr overflows⟩
  · exact ⟨settled.1, .inr overflows⟩

theorem of_ahead (settles : Ahead stage tokens → Settles stage view reader reader' tokens post) :
    Settles stage view reader reader' tokens post :=
  fun ahead => settles ahead ahead

theorem pure (isView : result' = view result) (holds : post result [] tokens) :
    Settles stage view (Pure.pure result) (Pure.pure result') tokens post := by
  subst isView
  exact of_ok [] rfl rfl nofun holds rfl

theorem bind (first : Settles stage middleView reader reader' tokens middle)
    (rest : ∀ result used others, middle result used others →
      Settles stage view (next result) (next' (middleView result)) others
        fun last more => post last (used ++ more)) :
    Settles stage view (reader >>= next) (reader' >>= next') tokens post := by
  intro ahead
  have settled := first ahead
  cases read : reader tokens with
  | error =>
    rw [read] at settled
    rw [bind_of_error read]
    refine ⟨settled.1, settled.2.imp ?_ fun overflows => ⟨overflows.1, bind_of_error overflows.2⟩⟩
    rintro ⟨cause', failed, same⟩
    exact ⟨cause', bind_of_error failed, same⟩
  | ok outcome =>
    rw [read] at settled
    obtain ⟨⟨used, isRest, taken, holds⟩, read'⟩ := settled
    have settledRest := rest _ _ _ holds (ahead.rest isRest fun token member =>
      (taken token member).1)
    have whole : Settles stage view (reader >>= next) (fun _ => next' (middleView outcome.1)
        (stage.moved outcome.2)) tokens post := by
      intro _
      rw [bind_of_ok read]
      split at settledRest
      · obtain ⟨⟨more, isRest', taken', _⟩, readLast⟩ := settledRest
        refine ⟨⟨used ++ more, by rw [isRest, isRest', List.append_assoc], ?_, ?_⟩, readLast⟩
        · exact List.forall_mem_append.mpr ⟨taken, taken'⟩
        · rwa [List.map_append]
      · exact settledRest
    rcases read' with read' | overflows
    · exact whole.of_eq rfl (bind_of_ok read') ahead
    · exact whole.overflow ⟨overflows.1, bind_of_error overflows.2⟩ ahead

theorem same (first : Settles stage id reader reader' tokens middle)
    (rest : ∀ result used others, middle result used others →
      Settles stage view (next result) (next' result) others
        fun last more => post last (used ++ more)) :
    Settles stage view (reader >>= next) (reader' >>= next') tokens post :=
  bind first rest

theorem pure_bind (settles : Settles stage view (next value) (next' value) tokens post) :
    Settles stage view (Pure.pure value >>= next) (Pure.pure value >>= next') tokens post :=
  settles

theorem map (settles : Settles stage id reader reader' tokens middle) :
    Settles stage id (change <$> reader) (change <$> reader') tokens
      fun _ used left => ∃ result, middle result used left := by
  rw [map_eq_pure_bind, map_eq_pure_bind]
  refine same settles fun result _ _ _ => .pure rfl ⟨result, ?_⟩
  rwa [List.append_nil]

/-- At the front of what is left, there is a token. -/
theorem front (rest : ∀ token others, tokens = token :: others →
      Settles stage view reader reader' tokens post) :
    Settles stage view reader reader' tokens post := by
  intro ahead
  cases tokens with
  | nil =>
    obtain ⟨⟨_, member, _⟩, _⟩ := ahead
    cases member
  | cons token others => exact rest token others rfl ahead

theorem fail (cause : GrammarCause) :
    Settles stage view (Parser.fail cause) (Parser.fail cause) tokens post := by
  refine front fun _ _ isFront ahead => ?_
  obtain ⟨_, _, isStream, among⟩ := ahead
  subst isFront
  refine ⟨.grammar isStream (among List.mem_cons_self), .inl ⟨_, rfl, fun isId => ?_⟩⟩
  rw [isId]
  rfl

theorem enter (roomy : Roomy stage (depth + 1) room)
    (rest : ∀ room, Roomy stage depth room →
      Settles stage view (next none) (next' room) tokens post) :
    Settles stage view (Parser.enter none >>= next) (Parser.enter room >>= next') tokens post := by
  cases room with
  | none => exact rest none .unlimited
  | some frames =>
    cases frames with
    | zero =>
      have tight : stage.tight := roomy.resolve_right fun large => nomatch large 0 rfl
      exact (rest none .unlimited).overflow ⟨tight, rfl⟩
    | succ frames =>
      refine rest (some frames) (roomy.imp_right fun large _ isRoom => ?_)
      cases isRoom
      exact Nat.le_of_succ_le_succ (large _ rfl)

theorem peek (rest : ∀ kind location others, tokens = ⟨kind, location⟩ :: others →
      Settles stage view (next ⟨kind, location⟩) (next' ⟨kind, stage.move location⟩) tokens post) :
    Settles stage view (Parser.peek >>= next) (Parser.peek >>= next') tokens post := by
  refine front fun _ others isFront => (rest _ _ others isFront).of_eq ?_ ?_ <;>
    rw [isFront] <;> rfl

variable {kind : TokenKind}

theorem advanceOver {next next' : Unit → Reader α} (isFront : tokens = ⟨kind, location⟩ :: others)
    (notEnd : kind ≠ .eof) (rest : weight others + kindSize kind = weight tokens →
      Settles stage view (next ()) (next' ()) others
        fun last more left => Taken kind ∧ post last (kind :: more) left) :
    Settles stage view (discard Parser.advance >>= next) (discard Parser.advance >>= next') tokens
      post := by
  subst isFront
  intro ahead
  have settled := rest (by rw [weight_cons, size_eq_kindSize, Nat.add_comm])
    (ahead.rest rfl (List.forall_mem_singleton.mpr notEnd))
  have advanced : discard Parser.advance (stage.moved (⟨kind, location⟩ :: others)) =
      .ok ((), stage.moved others) := advance_cons notEnd
  rw [bind_of_ok (advance_cons notEnd), bind_of_ok advanced]
  split at settled
  · obtain ⟨⟨more, isRest, taken, isTaken, holds⟩, read'⟩ := settled
    exact ⟨⟨⟨kind, location⟩ :: more, congrArg _ isRest,
      List.forall_mem_cons.mpr ⟨isTaken, taken⟩, holds⟩, read'⟩
  · exact settled

theorem advance (isFront : tokens = ⟨kind, location⟩ :: others) (plain : isPlain kind = true)
    (rest : weight others < weight tokens →
      Settles stage view (next ()) (next' ()) others fun last more => post last (kind :: more)) :
    Settles stage view (discard Parser.advance >>= next) (discard Parser.advance >>= next') tokens
      post := by
  have positive := kindSize_pos kind
  have taken := taken_of_isPlain plain
  exact advanceOver isFront taken.1 fun _ =>
    (rest (by omega)).imp fun _ _ _ holds => ⟨taken, holds⟩

theorem advanceSymbol (isThere : frontKind tokens = .symbol symbol)
    (rest : ∀ others, weight others < weight tokens →
      Settles stage view (next ()) (next' ()) others
        fun last more => post last (.symbol symbol :: more)) :
    Settles stage view (discard Parser.advance >>= next) (discard Parser.advance >>= next') tokens
      post := by
  refine front fun token others isFront => ?_
  obtain ⟨kind, _⟩ := token
  obtain rfl : kind = .symbol symbol := by rwa [isFront] at isThere
  exact advance isFront rfl (rest others)

theorem lift {result result' : Except Failure β} (raised : ∀ cause, result = .error cause →
      Raised stage.whole cause ∧ stage.Repeats cause result')
    (rest : ∀ value, result = .ok value → (result' = .ok value ∨ stage.Overflows result') ∧
      Settles stage view (next value) (next' value) tokens post) :
    Settles stage view (liftM result >>= next) (liftM result' >>= next') tokens post := by
  cases result with
  | error cause =>
    obtain ⟨isRaised, ⟨cause', rfl, same⟩ | ⟨tight, rfl⟩⟩ := raised cause rfl
    · exact fun _ => ⟨isRaised, .inl ⟨cause', rfl, same⟩⟩
    · exact fun _ => ⟨isRaised, .inr ⟨tight, rfl⟩⟩
  | ok value =>
    obtain ⟨rfl | ⟨tight, rfl⟩, settles⟩ := rest value rfl
    · exact settles
    · exact settles.overflow ⟨tight, rfl⟩

theorem ifAtSymbol
    (isThere : frontKind tokens = .symbol symbol → Settles stage view reader reader' tokens post)
    (isAbsent : Settles stage view other other' tokens post) :
    Settles stage view (do if ← Parser.atSymbol symbol then reader else other)
      (do if ← Parser.atSymbol symbol then reader' else other') tokens post := by
  have there : frontKind (stage.moved tokens) = _ := frontKind_moved
  by_cases isFront : frontKind tokens = .symbol symbol
  · refine (isThere isFront).of_eq ?_ ?_ <;> rw [bind_of_ok (atSymbol_eq symbol _)] <;>
      simp [there, isFront]
  · refine isAbsent.of_eq ?_ ?_ <;> rw [bind_of_ok (atSymbol_eq symbol _)] <;> simp [there, isFront]

theorem ifAtEnd (isEnd : frontKind tokens = .eof → Settles stage view reader reader' tokens post)
    (isOther : Settles stage view other other' tokens post) :
    Settles stage view (do if ← Parser.atEnd then reader else other)
      (do if ← Parser.atEnd then reader' else other') tokens post := by
  have atEnd : Settles stage id Parser.atEnd Parser.atEnd tokens fun ended used left =>
      used = [] ∧ left = tokens ∧ (ended = true → frontKind tokens = .eof) := by
    refine .peek fun _ _ _ isFront => .pure rfl ⟨rfl, rfl, fun isEnd => ?_⟩
    rw [isFront]
    exact of_decide_eq_true isEnd
  refine same atEnd ?_
  rintro ended _ _ ⟨rfl, rfl, ends⟩
  cases ended
  · exact isOther
  · exact isEnd (ends rfl)

/-- A reader that takes a token of a kind if it is there, and says so. -/
structure Accepts (kind : TokenKind) (accept : Reader Bool) : Prop where
  plain : isPlain kind = true
  accepted : ∀ token tokens, token.kind = kind → accept (token :: tokens) = .ok (true, tokens)
  rejected : ∀ tokens, frontKind tokens ≠ kind → accept tokens = .ok (false, tokens)

theorem Accepts.symbol : Accepts (.symbol sign) (Parser.acceptSymbol sign) :=
  ⟨rfl, fun _ _ => acceptSymbol_cons, fun _ => acceptSymbol_of_ne⟩

theorem Accepts.keyword : Accepts (.keyword word) (Parser.acceptKeyword word) :=
  ⟨rfl, fun _ _ => acceptKeyword_cons, fun _ => acceptKeyword_of_ne⟩

/-- A reader that goes on after a token if it is there, and without it otherwise. -/
theorem ite (accepts : Accepts kind accept) (isThere : ∀ others, weight others < weight tokens →
      Settles stage view reader reader' others fun last more => post last (kind :: more))
    (isAbsent : Settles stage view other other' tokens post) :
    Settles stage view (do if ← accept then reader else other)
      (do if ← accept then reader' else other') tokens post := by
  refine front fun token others isFront => ?_
  subst isFront
  by_cases isKind : token.kind = kind
  · subst isKind
    have notEnd := (taken_of_isPlain accepts.plain).1
    have advanced (token' : Token) (others : List Token) (isKind : token'.kind = token.kind)
        (reader other : Reader α) : (do if ← accept then reader else other) (token' :: others) =
          (discard Parser.advance >>= fun _ => reader) (token' :: others) := by
      rw [bind_of_ok (accepts.accepted token' others isKind),
        bind_of_ok (advance_cons (isKind ▸ notEnd))]
      rfl
    have moved : Settles stage view (discard Parser.advance >>= fun _ => reader)
        (discard Parser.advance >>= fun _ => reader') (token :: others) post :=
      advance rfl accepts.plain (isThere others)
    exact moved.of_eq (advanced token others rfl reader other)
      (advanced (token.moved stage.move) _ rfl reader' other')
  · exact isAbsent.of_eq (bind_of_ok (accepts.rejected (token :: others) isKind))
      (bind_of_ok (accepts.rejected (token.moved stage.move :: _) isKind))

theorem expect (accepts : Accepts kind accept) (rest : ∀ others, weight others < weight tokens →
      Settles stage view (next ()) (next' ()) others fun last more => post last (kind :: more)) :
    Settles stage view ((do if ← accept then Pure.pure () else Parser.fail cause) >>= next)
      ((do if ← accept then Pure.pure () else Parser.fail cause) >>= next') tokens post := by
  have expected : Settles stage id (do if ← accept then Pure.pure () else Parser.fail cause)
      (do if ← accept then Pure.pure () else Parser.fail cause) tokens
      fun _ used left => used = [kind] ∧ weight left < weight tokens :=
    ite accepts (fun _ shorter => .pure rfl ⟨rfl, shorter⟩) (.fail _)
  refine same expected ?_
  rintro _ _ others ⟨rfl, shorter⟩
  exact rest others shorter

theorem optional (rest : ∀ used others, weight others ≤ weight tokens →
      Settles stage view (next ()) (next' ()) others fun last more => post last (used ++ more)) :
    Settles stage view (discard (Parser.acceptSymbol symbol) >>= next)
      (discard (Parser.acceptSymbol symbol) >>= next') tokens post := by
  have goesOn (next : Unit → Reader α) : (discard (Parser.acceptSymbol symbol) >>= next) =
      (do if ← Parser.acceptSymbol symbol then next () else next ()) := by
    simp only [ite_self]
    exact bind_map_left _ _ _
  rw [goesOn, goesOn]
  exact ite .symbol (fun others shorter => rest [_] others (Nat.le_of_lt shorter))
    (rest [] tokens (Nat.le_refl _))

theorem expectName (required : Required) :
    Settles stage id (Parser.expectName required) (Parser.expectName required) tokens
      fun _ _ left => weight left < weight tokens := by
  refine .peek fun _ _ _ isFront => ?_
  dsimp only
  split
  · exact .advance isFront rfl fun shorter => .pure rfl shorter
  · exact .fail _

theorem skipNewlines (rest : ∀ count others, weight others ≤ weight tokens →
      Settles stage view (next ()) (next' ()) others
        fun last more => post last (lineEnds count ++ more)) :
    Settles stage view (Parser.skipNewlines >>= next) (Parser.skipNewlines >>= next') tokens
      post := by
  have skipped (tokens : List Token) : Parser.skipNewlines tokens =
      .ok ((), tokens.dropWhile fun token => token.kind = .newline) := rfl
  have areLineEnds : ∀ token ∈ tokens.takeWhile (fun token => token.kind = .newline),
      token.kind = .newline := fun token member =>
    of_decide_eq_true (List.all_eq_true.mp List.all_takeWhile token member)
  have lighter : weight (tokens.dropWhile fun token => token.kind = .newline) ≤ weight tokens := by
    clear rest skipped areLineEnds
    induction tokens with
    | nil => exact Nat.le_refl _
    | cons token rest ih =>
      rw [List.dropWhile_cons]
      split
      · exact Nat.le_trans ih (Nat.le_add_left _ _)
      · exact Nat.le_refl _
  have settles : Settles stage id Parser.skipNewlines Parser.skipNewlines tokens
      fun _ used left => (∃ count, used = lineEnds count) ∧ weight left ≤ weight tokens := by
    refine of_ok _ (skipped tokens) List.takeWhile_append_dropWhile.symm
      (fun token member => ?_) ⟨⟨_, List.eq_replicate_iff.mpr ⟨rfl, fun kind member => ?_⟩⟩,
        lighter⟩ ((skipped _).trans (by rw [List.dropWhile_map]; rfl))
    · rw [areLineEnds token member]
      exact taken_of_isPlain rfl
    · obtain ⟨token, isTaken, rfl⟩ := List.mem_map.mp member
      exact areLineEnds token isTaken
  refine same settles ?_
  rintro _ _ others ⟨⟨count, rfl⟩, shorter⟩
  exact rest count others shorter

theorem acceptOperator (level : Level) :
    Settles stage (Option.map fun found => (found.1, stage.move found.2))
      (Parser.acceptOperator level) (Parser.acceptOperator level) tokens
      fun found used left => weight left + found.isSome.toNat ≤ weight tokens ∧
        (∀ operator ∈ found, operator.1.level = level ∧ used = [.symbol operator.1.symbol]) ∧
        (found = none → used = []) := by
  refine .peek fun kind location others isFront => ?_
  dsimp only
  split
  · split
    · rename_i isOperator
      obtain ⟨isLevel, isSymbol⟩ := Level.eq_of_operator? isOperator
      refine .advance isFront rfl fun shorter => .pure rfl ⟨shorter, fun _ isFound => ?_, nofun⟩
      cases isFound
      exact ⟨isLevel, by rw [isSymbol]⟩
    · exact .pure rfl ⟨Nat.le_refl _, nofun, fun _ => rfl⟩
  · exact .pure rfl ⟨Nat.le_refl _, nofun, fun _ => rfl⟩

end Settles

/-! ### Readers of expressions -/

theorem isEnded_of_scan (scanned : Lexer.scan file position chars = .ok tokens) :
    IsEnded tokens := by
  obtain ⟨_, last, rfl, _, isEnd⟩ := Lexer.scan_ends scanned
  exact ⟨last, List.mem_concat_self, isEnd⟩

def Level.height : Level → Nat
  | disjunction => 13
  | conjunction => 11
  | comparison => 8
  | sum => 6
  | product => 4

theorem Level.height_pos (level : Level) : 0 < level.height := by
  cases level <;> decide

def isSuffix : TokenKind → Bool
  | .symbol .dot => true
  | .symbol .openBracket => true
  | .symbol .openParen => true
  | _ => false

/-- An expression that suffixes may follow, or that none follows. -/
def Tops (expr : Expr) (rest : List Token) : Prop :=
  expr.rank = 8 ∨ expr.rank = 7 ∧ isSuffix (frontKind rest) = false

theorem isPlain_of_fieldName? (isName : fieldName? kind = some name) : isPlain kind = true := by
  cases kind <;> first | rfl | cases isName

theorem Tops.rank_eq (tops : Tops expr tokens) (isFront : tokens = ⟨kind, location⟩ :: others)
    (suffix : isSuffix kind = true) : expr.rank = 8 := by
  rcases tops with isTop | ⟨_, noSuffix⟩
  · exact isTop
  · rw [isFront, frontKind, suffix] at noSuffix
    cases noSuffix

def Written (rank : Nat) (tokens : List Token) (expr : Expr) (used : List TokenKind)
    (rest : List Token) : Prop :=
  Spells expr used ∧ rank ≤ expr.rank ∧ weight rest < weight tokens

section

variable (stage : Stage) (depth larger : Nat) (room : Room)

def EnoughForRest : Prop :=
  ∀ level first kinds tokens, Spells first kinds → level.rank ≤ first.rank →
    24 * weight tokens + 1 ≤ depth →
    Settles stage stage.expr (chainRest depth level first)
      (chainRest larger level (stage.expr first) room) tokens fun expr used rest =>
        Spells expr (kinds ++ used) ∧ level.rank ≤ expr.rank ∧ weight rest ≤ weight tokens

def EnoughForSuffixes : Prop :=
  ∀ object kinds tokens, Spells object kinds → Tops object tokens →
    24 * weight tokens + 1 ≤ depth →
    Settles stage stage.expr (suffixes depth object) (suffixes larger (stage.expr object) room)
      tokens fun expr used rest => Spells expr (kinds ++ used) ∧ 7 ≤ expr.rank ∧
        isSuffix (frontKind rest) = false ∧ weight rest ≤ weight tokens

def EnoughForParts : Prop :=
  ∀ pieces tokens, (∀ source format, .interpolation source format ∈ pieces →
      ∃ stream, Stream stage.whole stream ∧ Holds stream source) →
    24 * templateSize pieces ≤ depth →
    Settles stage (TemplatePart.listMoved stage.move) (templateParts depth pieces)
      (templateParts larger pieces room) tokens
      fun parts used rest => SpellsParts parts pieces ∧ BeginExpressions pieces ∧ used = [] ∧
        rest = tokens

structure Enough : Prop where
  expression : ∀ tokens, 24 * weight tokens + 15 ≤ depth →
    Settles stage stage.expr (expression depth) (expression larger room) tokens (Written 0 tokens)
  chain : ∀ level tokens, 24 * weight tokens + level.height + 1 ≤ depth →
    Settles stage stage.expr (chain depth level) (chain larger level room) tokens
      (Written level.rank tokens)
  chainRest : EnoughForRest stage depth larger room
  operand : ∀ level tokens, 24 * weight tokens + level.height ≤ depth →
    Settles stage stage.expr (operand depth level) (operand larger level room) tokens
      (Written (level.rank + 1) tokens)
  inverted : ∀ tokens, 24 * weight tokens + 10 ≤ depth →
    Settles stage stage.expr (inverted depth) (inverted larger room) tokens (Written 2 tokens)
  signed : ∀ tokens, 24 * weight tokens + 3 ≤ depth →
    Settles stage stage.expr (signed depth) (signed larger room) tokens (Written 6 tokens)
  suffixed : ∀ tokens, 24 * weight tokens + 2 ≤ depth →
    Settles stage stage.expr (suffixed depth) (suffixed larger room) tokens
      fun expr used rest => Written 7 tokens expr used rest ∧ isSuffix (frontKind rest) = false
  suffixes : EnoughForSuffixes stage depth larger room
  arguments : ∀ tokens, 24 * weight tokens + 16 ≤ depth →
    Settles stage stage.exprs (arguments depth) (arguments larger room) tokens
      fun exprs used rest => SpellsList exprs used ∧ weight rest ≤ weight tokens
  moreArguments : ∀ tokens, 24 * weight tokens + 1 ≤ depth →
    Settles stage stage.exprs (moreArguments depth) (moreArguments larger room) tokens
      fun exprs used rest => SpellsMore exprs used ∧ weight rest ≤ weight tokens
  moreElements : ∀ tokens, 24 * weight tokens + 1 ≤ depth →
    Settles stage stage.exprs (moreElements depth) (moreElements larger room) tokens
      fun exprs used rest => (∃ kinds trail, used = kinds ++ trail ∧ SpellsMore exprs kinds ∧
        Trails trail) ∧ weight rest ≤ weight tokens
  entries : ∀ tokens, 24 * weight tokens + 16 ≤ depth →
    Settles stage (Expr.entriesMoved stage.move) (entries depth) (entries larger room) tokens
      fun entries used rest => SpellsEntries entries used ∧ weight rest < weight tokens
  templateParts : EnoughForParts stage depth larger room
  primary : ∀ tokens, 24 * weight tokens + 1 ≤ depth →
    Settles stage stage.expr (primary depth) (primary larger room) tokens
      fun expr used rest => Spells expr used ∧ Tops expr rest ∧ weight rest < weight tokens

end

namespace Enough

theorem zero : Enough stage 0 larger room := by
  constructor
  case templateParts =>
    intro pieces _ _ _
    have positive := templateSize_pos pieces
    omega
  case operand =>
    intro level _ _
    have positive := level.height_pos
    omega
  case chainRest => exact fun _ _ _ _ _ _ isEnough => by omega
  case suffixes => exact fun _ _ _ _ _ _ => by omega
  all_goals
    intros
    omega

variable (ih : ∀ {room}, Roomy stage larger room → Enough stage depth larger room)
  (roomy : Roomy stage (larger + 1) room)
include ih roomy

theorem succ_operand (level : Level) (tokens : List Token)
    (isEnough : 24 * weight tokens + level.height ≤ depth + 1) :
    Settles stage stage.expr (Parser.operand (depth + 1) level)
      (Parser.operand (larger + 1) level room) tokens (Written (level.rank + 1) tokens) := by
  replace ih := ih roomy.less
  cases level with
  | disjunction => exact ih.chain .conjunction tokens (by simp only [Level.height] at *; omega)
  | conjunction => exact ih.inverted tokens (by simp only [Level.height] at *; omega)
  | comparison => exact ih.chain .sum tokens (by simp only [Level.height] at *; omega)
  | sum => exact ih.chain .product tokens (by simp only [Level.height] at *; omega)
  | product => exact ih.signed tokens (by simp only [Level.height] at *; omega)

theorem succ_chainRest : EnoughForRest stage (depth + 1) (larger + 1) room := by
  replace ih := ih roomy.less
  intro level _ _ _ spelled fits _
  have small : level.height ≤ 13 := by cases level <;> decide
  unfold Parser.chainRest
  refine .bind (.acceptOperator level) fun found used others ⟨consumed, isFound, isNone⟩ => ?_
  cases found with
  | none =>
    rw [isNone rfl]
    exact .pure rfl ⟨by simpa using spelled, fits, consumed⟩
  | some found =>
    obtain ⟨rfl, rfl⟩ := isFound found rfl
    rw [Option.isSome_some, Bool.toNat_true] at consumed
    refine .bind (ih.operand _ others (by omega)) ?_
    rintro _ _ rest ⟨isRight, tighter, _⟩
    refine (ih.chainRest _ _ _ rest (.binary spelled isRight fits tighter) (Nat.le_refl _)
      (by omega)).imp ?_
    rintro _ _ _ ⟨isSpelled, isFit, _⟩
    exact ⟨by simpa using isSpelled, isFit, by omega⟩

theorem succ_suffixes : EnoughForSuffixes stage (depth + 1) (larger + 1) room := by
  replace ih := ih roomy.less
  intro object kinds tokens spelled tops isEnough
  unfold Parser.suffixes
  refine .peek fun kind location others isFront => ?_
  dsimp only
  split
  · have isTop := tops.rank_eq isFront rfl
    refine .advance isFront rfl fun shorter => .peek fun kind location others isField => ?_
    dsimp only
    split
    · rename_i isName
      refine .advance isField (isPlain_of_fieldName? isName) fun _ => ?_
      refine (ih.suffixes _ _ others (.field spelled isTop isName) (.inl rfl) (by omega)).imp ?_
      rintro _ _ _ ⟨isSpelled, isFit, noSuffix, _⟩
      exact ⟨by simpa using isSpelled, isFit, noSuffix, by omega⟩
    · exact .fail _
  · have isTop := tops.rank_eq isFront rfl
    refine .advance isFront rfl fun shorter => .bind (ih.expression others (by omega)) ?_
    rintro position kinds' others ⟨isPosition, _, shorter⟩
    refine .expect .symbol fun others _ => ?_
    refine (ih.suffixes _ _ others (.index spelled isTop isPosition) (.inl rfl) (by omega)).imp ?_
    rintro expr more rest ⟨isSpelled, isFit, noSuffix, shorter'⟩
    exact ⟨by simpa using isSpelled, isFit, noSuffix, by omega⟩
  · have isTop := tops.rank_eq isFront rfl
    refine .advance isFront rfl fun shorter => .bind (ih.arguments others (by omega)) ?_
    rintro arguments kinds' others ⟨areGiven, shorter⟩
    refine .expect .symbol fun others _ => ?_
    refine (ih.suffixes _ _ others (.call spelled isTop areGiven) (.inl rfl) (by omega)).imp ?_
    rintro expr more rest ⟨isSpelled, isFit, noSuffix, shorter'⟩
    exact ⟨by simpa using isSpelled, isFit, noSuffix, by omega⟩
  · refine .pure rfl ⟨by simpa using spelled, ?_, ?_, Nat.le_refl _⟩
    · rcases tops with isTop | ⟨isTop, _⟩ <;> omega
    · rename_i noField noItem noCall
      rw [isFront]
      exact isSuffix.eq_4 kind noField noItem noCall

theorem succ_templateParts (own : Enough { stage with tight := False } depth depth none) :
    EnoughForParts stage (depth + 1) (larger + 1) room := by
  replace ih := ih roomy.less
  intro pieces tokens inside isEnough
  cases pieces with
  | nil => exact .pure rfl ⟨.nil, by simp [BeginExpressions], rfl, rfl⟩
  | cons piece pieces =>
    have positive := templateSize_pos pieces
    rw [templateSize_cons] at isEnough
    have others := ih.templateParts pieces tokens fun source format member =>
      inside source format (List.mem_cons_of_mem _ member)
    cases piece with
    | text content =>
      simp only [pieceSize] at isEnough
      refine .bind (others (by omega)) ?_
      rintro rest _ _ ⟨areOthers, begin, rfl, rfl⟩
      refine .pure rfl ⟨.text areOthers, fun source format member => ?_, rfl, rfl⟩
      exact begin source format ((List.mem_cons.mp member).resolve_left (by simp))
    | interpolation source format =>
      simp only [pieceSize] at isEnough
      obtain ⟨stream, isStream, holds⟩ := inside source format List.mem_cons_self
      unfold Parser.templateParts
      refine .lift (fun cause failed => ⟨.lexical isStream holds failed,
        .inl ⟨cause, failed, fun _ => rfl⟩⟩) fun inner tokenized => ⟨.inl tokenized, ?_⟩
      have small := depthFor_le tokenized
      rw [depthFor_eq] at small
      have ahead : Ahead stage inner :=
        ⟨isEnded_of_scan tokenized, inner, .inner isStream holds tokenized, List.Subset.refl _⟩
      have settles := ih.expression inner (by omega)
      have fixed : stage.moved inner = inner := stage.fixes isStream holds tokenized
      refine .lift (fun cause failed => fixed ▸ settles.raised_of_error ahead failed)
        fun read isRead => ?_
      -- the tokens of a hole stay where they are, and so does what is read from them
      obtain ⟨⟨used, isUsed, taken, spelled, _⟩, again⟩ := settles.read_of_ok ahead isRead
      have begins : BeginsExpression source := by
        subst isUsed
        refine .intro tokenized (by rw [depthFor_eq]; omega) isRead spelled ?_
        rintro text ⟨token, member, pieces, format, isTemplate, isPiece⟩
        exact (taken token member).2 pieces isTemplate text format isPiece
      have ownAgain := ((own.expression inner (by omega)).read_of_ok ⟨ahead.1, ahead.2⟩
        isRead).2.resolve_right (·.1)
      rw [fixed] at again ownAgain
      have alike := Except.ok.inj (isRead.symm.trans ownAgain)
      refine ⟨again.imp_left (·.trans (congrArg _ alike.symm)), .bind (others (by omega)) ?_⟩
      rintro rest _ _ ⟨areOthers, begin, rfl, rfl⟩
      have isAlike : read.1 = Expr.moved stage.move read.1 := congrArg Prod.fst alike
      refine .pure (by rw [TemplatePart.listMoved, ← isAlike])
        ⟨.interpolation (isUsed ▸ tokenized) spelled areOthers,
          fun text format' member => ?_, rfl, rfl⟩
      rcases List.mem_cons.mp member with same | isLater
      · cases same
        exact begins
      · exact begin text format' isLater

theorem succ_primary (tokens : List Token) (isEnough : 24 * weight tokens + 1 ≤ depth + 1) :
    Settles stage stage.expr (Parser.primary (depth + 1)) (Parser.primary (larger + 1) room) tokens
      fun expr used rest => Spells expr used ∧ Tops expr rest ∧ weight rest < weight tokens := by
  unfold Parser.primary
  refine .of_ahead fun ahead => .enter roomy fun _ roomy => .peek fun _ _ others isFront => ?_
  replace ih := ih roomy
  dsimp only
  split
  case h_8 pieces =>
    refine .advanceOver isFront (by simp) fun consumed => ?_
    rw [kindSize] at consumed
    have positive := templateSize_pos pieces
    obtain ⟨_, stream, isStream, among⟩ := ahead
    have inside (source : String) (format : Option String)
        (isPiece : .interpolation source format ∈ pieces) :
        ∃ stream, Stream stage.whole stream ∧ Holds stream source :=
      ⟨stream, isStream, _, among (isFront ▸ List.mem_cons_self), pieces, format, rfl, isPiece⟩
    refine .bind (ih.templateParts pieces others inside (by omega)) ?_
    rintro _ _ _ ⟨areSpelled, begin, rfl, rfl⟩
    refine .pure rfl ⟨⟨by simp, ?_⟩, .template areSpelled, .inl rfl, by omega⟩
    rintro _ ⟨⟩
    exact begin
  case h_9 =>
    refine .advance isFront rfl fun shorter => .expect .symbol fun others shorter => ?_
    refine .bind (ih.expression others (by omega)) ?_
    rintro _ _ others ⟨spelled, _, shorter⟩
    exact .expect .symbol fun _ _ => .pure rfl ⟨.zeros spelled, .inl rfl, by omega⟩
  case h_10 =>
    refine .advance isFront rfl fun shorter => .bind (ih.suffixed others (by omega)) ?_
    rintro _ _ _ ⟨⟨spelled, fits, _⟩, noSuffix⟩
    refine .pure rfl ⟨?_, .inr ⟨rfl, noSuffix⟩, by omega⟩
    simpa using Spells.ref spelled fits
  case h_11 =>
    refine .advance isFront rfl fun shorter => .skipNewlines fun _ others skipped => ?_
    refine .ifAtSymbol (fun isClose => ?_) ?_
    · exact .advanceSymbol isClose fun _ _ => .pure rfl ⟨.emptyArray, .inl rfl, by omega⟩
    · refine .bind (ih.expression others (by omega)) ?_
      rintro _ _ others ⟨isFirst, _, shorter⟩
      refine .bind (ih.moreElements others (by omega)) ?_
      rintro _ _ others ⟨⟨_, _, rfl, areOthers, trails⟩, shorter⟩
      refine .skipNewlines fun _ others _ => .expect .symbol fun _ _ =>
        .pure rfl ⟨?_, .inl rfl, by omega⟩
      simpa using Spells.array isFirst areOthers trails
  case h_12 =>
    refine .advance isFront rfl fun shorter => .skipNewlines fun _ others skipped => ?_
    refine .ifAtSymbol (fun isClose => ?_) ?_
    · exact .advanceSymbol isClose fun _ _ => .pure rfl ⟨.emptyMap, .inl rfl, by omega⟩
    · refine .bind (ih.entries others (by omega)) ?_
      rintro _ _ others ⟨spelled, shorter⟩
      exact .skipNewlines fun _ others _ => .expect .symbol fun _ _ =>
        .pure rfl ⟨.map spelled, .inl rfl, by omega⟩
  case h_13 =>
    refine .advance isFront rfl fun shorter => .bind (ih.expression others (by omega)) ?_
    rintro _ _ others ⟨spelled, _, shorter⟩
    exact .expect .symbol fun _ _ => .pure rfl ⟨.group spelled, .inl rfl, by omega⟩
  case h_16 => exact .fail _
  all_goals exact .advance isFront rfl fun shorter => .pure rfl ⟨.atom rfl, .inl rfl, shorter⟩

theorem succ (own : Enough { stage with tight := False } depth depth none) :
    Enough stage (depth + 1) (larger + 1) room where
  expression tokens isEnough := .enter roomy fun _ roomy =>
    (ih roomy).chain .disjunction tokens (by simp only [Level.height]; omega)
  chain level tokens isEnough := by
    refine .enter roomy fun _ roomy => .bind ((ih roomy).operand level tokens (by omega)) ?_
    rintro first kinds others ⟨spelled, fits, _⟩
    refine ((ih roomy).chainRest level first kinds others spelled (Nat.le_of_succ_le fits)
      (by omega)).imp ?_
    exact fun expr used rest ⟨isSpelled, isFit, _⟩ => ⟨isSpelled, isFit, by omega⟩
  chainRest := succ_chainRest ih roomy
  operand := succ_operand ih roomy
  inverted tokens isEnough := by
    unfold Parser.inverted
    refine .enter roomy fun _ roomy => .peek fun kind location others isFront => ?_
    replace ih := ih roomy
    dsimp only
    split
    · rename_i isNot
      subst isNot
      refine .advance isFront rfl fun shorter => .bind (ih.inverted others (by omega)) ?_
      rintro operand kinds _ ⟨spelled, fits, shorter⟩
      have isUnary : Spells (.unary .invert operand location) (.symbol .not :: kinds) :=
        .unary spelled fits
      exact .pure rfl ⟨by simpa using isUnary, Nat.le_refl _, by omega⟩
    · refine (ih.chain .comparison tokens (by simp only [Level.height]; omega)).imp ?_
      exact fun expr used rest ⟨isSpelled, isFit, shorter⟩ =>
        ⟨isSpelled, Nat.le_of_succ_le isFit, shorter⟩
  signed tokens isEnough := by
    unfold Parser.signed
    refine .enter roomy fun _ roomy => .peek fun kind location others isFront => ?_
    replace ih := ih roomy
    dsimp only
    split
    · rename_i isMinus
      subst isMinus
      refine .advance isFront rfl fun shorter => .bind (ih.signed others (by omega)) ?_
      rintro operand kinds _ ⟨spelled, fits, shorter⟩
      have isUnary : Spells (.unary .negate operand location) (.symbol .minus :: kinds) :=
        .unary spelled fits
      exact .pure rfl ⟨by simpa using isUnary, Nat.le_refl _, by omega⟩
    · refine (ih.suffixed tokens (by omega)).imp ?_
      exact fun expr used rest ⟨⟨isSpelled, isFit, shorter⟩, _⟩ =>
        ⟨isSpelled, Nat.le_of_succ_le isFit, shorter⟩
  suffixed tokens isEnough := by
    refine .enter roomy fun _ roomy => .bind ((ih roomy).primary tokens (by omega)) ?_
    rintro first kinds others ⟨spelled, tops, _⟩
    refine ((ih roomy).suffixes first kinds others spelled tops (by omega)).imp ?_
    exact fun expr used rest ⟨isSpelled, isFit, noSuffix, _⟩ =>
      ⟨⟨isSpelled, isFit, by omega⟩, noSuffix⟩
  suffixes := succ_suffixes ih roomy
  arguments tokens isEnough := by
    replace ih := ih roomy.less
    unfold Parser.arguments
    refine .ifAtSymbol (fun _ => .pure rfl ⟨.nil, Nat.le_refl _⟩) ?_
    refine .bind (ih.expression tokens (by omega)) ?_
    rintro _ _ others ⟨isFirst, _, shorter⟩
    refine .bind (ih.moreArguments others (by omega)) ?_
    rintro _ _ _ ⟨areOthers, _⟩
    refine .pure rfl ⟨?_, by omega⟩
    simpa using SpellsList.cons isFirst areOthers
  moreArguments tokens isEnough := by
    replace ih := ih roomy.less
    unfold Parser.moreArguments
    refine .ite .symbol (fun others shorter => ?_) (.pure rfl ⟨.nil, Nat.le_refl _⟩)
    refine .skipNewlines fun _ others _ => .bind (ih.expression others (by omega)) ?_
    rintro _ _ others ⟨isNext, _, shorter⟩
    refine .bind (ih.moreArguments others (by omega)) ?_
    rintro _ _ _ ⟨areOthers, _⟩
    refine .pure rfl ⟨?_, by omega⟩
    simpa using SpellsMore.cons isNext areOthers
  moreElements tokens isEnough := by
    replace ih := ih roomy.less
    unfold Parser.moreElements
    refine .ite .symbol (fun others shorter => ?_)
      (.pure rfl ⟨⟨[], [], rfl, .nil, .nothing⟩, Nat.le_refl _⟩)
    refine .skipNewlines fun count others _ => .ifAtSymbol (fun _ => ?_) ?_
    · exact .pure rfl ⟨⟨[], .symbol .comma :: lineEnds count, by simp, .nil, .comma⟩, by omega⟩
    · refine .bind (ih.expression others (by omega)) ?_
      rintro _ kinds others ⟨isNext, _, shorter⟩
      refine .bind (ih.moreElements others (by omega)) ?_
      rintro _ _ _ ⟨⟨kinds', trail, rfl, areOthers, trails⟩, _⟩
      exact .pure rfl
        ⟨⟨.symbol .comma :: (lineEnds count ++ (kinds ++ kinds')), trail, by simp,
          .cons isNext areOthers, trails⟩, by omega⟩
  entries tokens isEnough := by
    replace ih := ih roomy.less
    unfold Parser.entries
    refine .skipNewlines fun _ others skipped => .bind (ih.expression others (by omega)) ?_
    rintro _ _ others ⟨isKey, _, shorter⟩
    refine .expect .symbol fun others shorter => .skipNewlines fun _ others _ => ?_
    refine .bind (ih.expression others (by omega)) ?_
    rintro _ _ others ⟨isValue, _, shorter⟩
    refine .ite .symbol (fun others shorter => ?_) (.pure rfl ⟨?_, by omega⟩)
    · refine .bind (ih.entries others (by omega)) ?_
      rintro _ _ _ ⟨areOthers, _⟩
      refine .pure rfl ⟨?_, by omega⟩
      simpa using SpellsEntries.more isKey isValue areOthers
    · simpa using SpellsEntries.last isKey isValue
  templateParts := succ_templateParts ih roomy own
  primary := succ_primary ih roomy

end Enough

theorem enough (deep : depth ≤ larger) (roomy : Roomy stage larger room) :
    Enough stage depth larger room := by
  induction depth generalizing larger room stage with
  | zero => exact .zero
  | succ _ ih =>
    obtain ⟨larger, rfl⟩ : ∃ larger', larger = larger' + 1 := ⟨larger - 1, by omega⟩
    exact .succ (fun roomy => ih (by omega) roomy) roomy (ih (Nat.le_refl _) .unlimited)

theorem expression_iff_of_tokenize (tokenized : tokenize source = .ok tokens)
    (deep : depthFor tokens ≤ depth) :
    expression depth none tokens = .ok result ↔
      expression (depthFor tokens) none tokens = .ok result := by
  have isEnough : 24 * weight tokens + 15 ≤ depthFor tokens := by
    rw [depthFor_eq]
    omega
  have ahead : Ahead (Stage.unfiled tokens) tokens := .all (isEnded_of_scan tokenized)
  have fixed : (Stage.unfiled tokens).moved tokens = tokens := map_unfiled_of_tokenize tokenized
  have settles {depth : Nat} (deep : depthFor tokens ≤ depth) := (enough deep .unlimited :
    Enough (.unfiled tokens) _ _ none).expression tokens isEnough
  cases least : expression (depthFor tokens) none tokens with
  | error =>
    obtain ⟨_, ⟨_, failed, _⟩ | ⟨⟨⟩, _⟩⟩ := (settles deep).raised_of_error ahead least
    rw [fixed] at failed
    simp [failed]
  | ok =>
    have again := ((settles deep).read_of_ok ahead least).2.resolve_right (·.1)
    have same := ((settles (Nat.le_refl _)).read_of_ok ahead least).2.resolve_right (·.1)
    rw [fixed] at again same
    rw [again, ← same, least]

/-! ### Readers of types -/

section Types

theorem settles_structType (isEnough : 24 * weight tokens + 1 ≤ depth) :
    Settles stage id (structType depth home name) (structType (extra + depth) home name) tokens
      fun type _ left => weight left ≤ weight tokens ∧ type.isModule = false := by
  induction depth generalizing tokens home name with
  | zero => omega
  | succ _ ih =>
    rw [← Nat.add_assoc]
    unfold structType
    refine .ite .symbol (fun others shorter => ?_) (.pure rfl ⟨Nat.le_refl _, rfl⟩)
    refine .same (.expectName _) fun _ _ _ _ => ?_
    exact (ih (by omega)).imp fun _ _ _ left => ⟨by omega, left.2⟩

theorem settles_arraySuffixes (isPlain : element.isModule = false)
    (isEnough : 24 * weight tokens + 1 ≤ depth) :
    Settles stage id (arraySuffixes depth element) (arraySuffixes (extra + depth) element) tokens
      fun type _ left => weight left ≤ weight tokens ∧ type.isModule = false := by
  induction depth generalizing tokens element with
  | zero => omega
  | succ _ ih =>
    rw [← Nat.add_assoc]
    unfold arraySuffixes
    refine .ite .symbol (fun others shorter => ?_) (.pure rfl ⟨Nat.le_refl _, isPlain⟩)
    refine .ite .symbol (fun others shorter => ?_) (.peek fun _ _ others isFront => ?_)
    · exact (ih rfl (by omega)).imp fun _ _ _ left => ⟨by omega, left.2⟩
    · dsimp only
      split
      · refine .advance isFront rfl fun shorter => .expect .symbol fun _ _ => ?_
        exact (ih rfl (by omega)).imp fun _ _ _ left => ⟨by omega, left.2⟩
      · exact .fail _

theorem isModule_of_primitive {type : Ty} (isPrimitive : primitive? word = some type) :
    type.isModule = false := by
  cases word <;> cases isPrimitive <;> rfl

theorem settles_type (roomy : Roomy stage (extra + depth) room)
    (isEnough : 24 * weight tokens + 1 ≤ depth) :
    Settles stage id (type depth) (type (extra + depth) room) tokens
      fun type _ left => weight left < weight tokens ∧ type.isModule = false := by
  induction depth generalizing tokens room with
  | zero => omega
  | succ depth ih =>
    rw [← Nat.add_assoc] at roomy ⊢
    unfold type
    refine .enter roomy fun _ roomy => .peek fun kind location others isFront => ?_
    replace ih {tokens : List Token} := @ih tokens _ roomy
    dsimp only
    split
    · refine .advance isFront rfl fun _ => .same (ih (by omega)) fun _ _ _ _ => ?_
      exact .pure rfl ⟨by omega, rfl⟩
    · refine .advance isFront rfl fun shorter => .expect .symbol fun others shorter => ?_
      refine .same (ih (by omega)) fun _ _ others shorter =>
        .expect .symbol fun others shorter => ?_
      refine .same (ih (by omega)) fun _ _ others shorter =>
        .expect .symbol fun _ _ => ?_
      exact (settles_arraySuffixes rfl (by omega)).imp fun _ _ _ left => ⟨by omega, left.2⟩
    · split
      · rename_i isPrimitive
        refine .advance isFront rfl fun _ => ?_
        exact (settles_arraySuffixes (isModule_of_primitive isPrimitive) (by omega)).imp
          fun _ _ _ left => ⟨by omega, left.2⟩
      · exact .fail _
    · refine .advance isFront rfl fun _ => ?_
      refine .same (settles_structType (by omega)) fun _ _ _ isStruct => ?_
      exact (settles_arraySuffixes isStruct.2 (by omega)).imp fun _ _ _ left => ⟨by omega, left.2⟩
    · exact .fail _

/-! ### Readers of statements -/

theorem settles_declared (roomy : Roomy stage (extra + depth) room)
    (isEnough : 24 * weight tokens ≤ depth) :
    Settles stage id (declared depth required) (declared (extra + depth) required room) tokens
      fun declared _ left => weight left < weight tokens ∧ declared.type.isModule = false := by
  refine .same (.expectName _) fun _ _ others shorter => .expect .symbol fun others _ => ?_
  exact .same (settles_type roomy (by omega)) fun _ _ _ left => .pure rfl ⟨by omega, left.2⟩

/-- A reader of more items, each after a symbol, settles if the reader of an item does. -/
theorem settles_more (more more' : Nat → Reader (List α)) {item item' : Nat → Reader α}
    (unfolds : ∀ depth, more (depth + 1) = (do
      if (← acceptSymbol symbol) then
        let next ← item depth
        let rest ← more depth
        return next :: rest
      else
        return []))
    (unfolds' : ∀ depth, more' (depth + 1) = (do
      if (← acceptSymbol symbol) then
        let next ← item' depth
        let rest ← more' depth
        return next :: rest
      else
        return []))
    (each : ∀ {depth tokens}, Roomy stage (extra + depth) room → 24 * weight tokens ≤ depth →
      Settles stage id (item depth) (item' (extra + depth)) tokens
        fun _ _ left => weight left < weight tokens)
    (roomy : Roomy stage (extra + depth) room) (isEnough : 24 * weight tokens + 1 ≤ depth) :
    Settles stage id (more depth) (more' (extra + depth)) tokens
      fun _ _ left => weight left ≤ weight tokens := by
  induction depth generalizing tokens with
  | zero => omega
  | succ _ ih =>
    rw [← Nat.add_assoc] at roomy ⊢
    rw [unfolds, unfolds']
    refine .ite .symbol (fun others shorter => ?_) (.pure rfl (Nat.le_refl _))
    refine .same (each roomy.less (by omega)) fun _ _ others shorter => ?_
    exact .same (ih roomy.less (by omega)) fun _ _ _ _ => .pure rfl (by omega)

section

variable (roomy : Roomy stage (extra + depth) room) (isEnough : 24 * weight tokens + 1 ≤ depth)
include roomy isEnough

theorem settles_params :
    Settles stage id (params depth) (params (extra + depth) room) tokens
      fun _ _ left => weight left ≤ weight tokens := by
  unfold params
  refine .ifAtSymbol (fun _ => .pure rfl (Nat.le_refl _)) ?_
  refine .same (settles_declared roomy (by omega)) fun _ _ others _ => ?_
  refine .same (settles_more (moreParams ·) (moreParams · room) (fun _ => rfl)
    (fun _ => rfl) (fun roomy isEnough => (settles_declared roomy isEnough).imp
      fun _ _ _ left => left.1) roomy (by omega)) fun _ _ _ _ => ?_
  exact .pure rfl (by omega)

theorem settles_structFields :
    Settles stage id (structFields depth) (structFields (extra + depth) room) tokens
      fun _ _ left => weight left ≤ weight tokens := by
  induction depth generalizing tokens with
  | zero => omega
  | succ _ ih =>
    rw [← Nat.add_assoc] at roomy ⊢
    unfold structFields
    refine .skipNewlines fun _ others skipped => .peek fun _ _ _ _ => ?_
    dsimp only
    split
    · exact .pure rfl skipped
    · exact .pure rfl skipped
    · refine .same (settles_declared roomy.less (by omega)) fun _ _ others shorter => ?_
      refine .optional fun _ others shorter => ?_
      exact .same (ih roomy.less (by omega)) fun _ _ _ _ => .pure rfl (by omega)
    · exact .fail _

theorem settles_selection :
    Settles stage id (selection depth) (selection (extra + depth)) tokens
      fun _ _ left => weight left ≤ weight tokens := by
  unfold selection
  refine .ite .keyword (fun others shorter => ?_) (.pure rfl (Nat.le_refl _))
  refine .ite .symbol (fun others shorter => .pure rfl (by omega)) ?_
  refine .same (.expectName _) fun _ _ others shorter => ?_
  refine .same (settles_more moreNames moreNames (fun _ => rfl) (fun _ => rfl)
    (fun _ _ => .expectName _) roomy (by omega)) fun _ _ _ _ => .pure rfl (by omega)

end

theorem settles_functionName :
    Settles stage id functionName functionName tokens fun _ _ left => weight left < weight tokens :=
  .ite .keyword (fun _ shorter => .pure rfl shorter) (.expectName _)

theorem settles_written (roomy : Roomy stage (extra + depth) room) :
    (∀ tokens, 24 * weight tokens + 16 ≤ depth →
      Settles stage (Stmt.moved stage.move) (statement depth) (statement (extra + depth) room)
        tokens fun stmt _ left => weight left < weight tokens ∧ stmt.isWritable = true) ∧
    ∀ untilElse tokens, 24 * weight tokens + 17 ≤ depth →
      Settles stage stage.stmts (block depth untilElse) (block (extra + depth) untilElse room)
        tokens fun _ _ left => weight left ≤ weight tokens := by
  induction depth generalizing room with
  | zero => exact ⟨fun _ _ => by omega, fun _ _ _ => by omega⟩
  | succ depth ih =>
    rw [← Nat.add_assoc] at roomy ⊢
    constructor
    · intro tokens isEnough
      unfold statement
      refine .enter roomy fun room roomy => .peek fun kind location others isFront => ?_
      have ihBlock := (ih roomy).2
      have ihExpression (tokens : List Token) (isEnough : 24 * weight tokens + 15 ≤ depth) :
          Settles stage stage.expr (expression depth) (expression (extra + depth) room) tokens
            fun _ _ left => weight left < weight tokens :=
        ((enough (Nat.le_add_left depth extra) roomy).expression tokens isEnough).imp
          fun _ _ _ written => written.2.2
      dsimp only
      split
      case h_1 =>
        refine .advance isFront rfl fun shorter => ?_
        refine .same (settles_declared roomy (by omega)) fun _ _ others shorter => ?_
        refine .ite .symbol (fun others shorter => ?_) (.pure rfl ⟨by omega, rfl⟩)
        exact .bind (ihExpression others (by omega)) fun _ _ _ _ => .pure rfl ⟨by omega, rfl⟩
      case h_2 =>
        refine .advance isFront rfl fun shorter => ?_
        refine .same (settles_declared roomy (by omega)) fun _ _ others isDeclared => ?_
        refine .expect .symbol fun others shorter => ?_
        exact .bind (ihExpression others (by omega)) fun _ _ _ _ =>
          .pure rfl ⟨by omega, congrArg not isDeclared.2⟩
      case h_3 =>
        refine .advance isFront rfl fun shorter => ?_
        refine .same settles_functionName fun _ _ others shorter => ?_
        refine .expect .symbol fun others shorter => ?_
        refine .same (settles_params roomy (by omega)) fun _ _ others shorter => ?_
        refine .expect .symbol fun others shorter => .ite .symbol (fun others shorter => ?_) ?_
        · refine .same (settles_type roomy (by omega)) fun _ _ others shorter => ?_
          refine .bind (ihBlock _ others (by omega)) fun _ _ others shorter => ?_
          exact .expect .keyword fun _ _ => .pure rfl ⟨by omega, rfl⟩
        · refine .pure_bind (.bind (ihBlock _ others (by omega)) fun _ _ others shorter => ?_)
          exact .expect .keyword fun _ _ => .pure rfl ⟨by omega, rfl⟩
      case h_4 =>
        refine .advance isFront rfl fun shorter => ?_
        refine .same (.expectName _) fun _ _ others shorter => ?_
        refine .same (settles_structFields roomy (by omega)) fun _ _ others shorter => ?_
        exact .expect .keyword fun _ _ => .pure rfl ⟨by omega, rfl⟩
      case h_5 =>
        refine .advance isFront rfl fun shorter => ?_
        refine .bind (ihExpression others (by omega)) fun _ _ others shorter => ?_
        refine .expect .keyword fun others shorter => ?_
        refine .bind (ihBlock _ others (by omega)) fun _ _ others shorter => ?_
        refine .ite .keyword (fun others shorter => ?_) ?_
        · refine .bind (ihBlock _ others (by omega)) fun _ _ others shorter => ?_
          exact .expect .keyword fun _ _ => .pure rfl ⟨by omega, rfl⟩
        · exact .pure_bind (.expect .keyword fun _ _ => .pure rfl ⟨by omega, rfl⟩)
      case h_6 =>
        refine .advance isFront rfl fun shorter => ?_
        refine .bind (ihExpression others (by omega)) fun _ _ others shorter => ?_
        refine .expect .keyword fun others shorter => ?_
        refine .bind (ihBlock _ others (by omega)) fun _ _ others shorter => ?_
        exact .expect .keyword fun _ _ => .pure rfl ⟨by omega, rfl⟩
      case h_7 =>
        refine .advance isFront rfl fun shorter => .peek fun _ _ _ _ => ?_
        dsimp only
        split
        · exact .pure rfl ⟨shorter, rfl⟩
        · exact .pure rfl ⟨shorter, rfl⟩
        · exact .pure rfl ⟨shorter, rfl⟩
        · exact .bind (ihExpression others (by omega)) fun _ _ _ _ => .pure rfl ⟨by omega, rfl⟩
      case h_8 => exact .advance isFront rfl fun shorter => .pure rfl ⟨shorter, rfl⟩
      case h_9 =>
        refine .advance isFront rfl fun shorter => ?_
        refine .same (.expectName _) fun _ _ others shorter => ?_
        refine .same (settles_more morePath morePath (fun _ => rfl) (fun _ => rfl)
          (fun _ _ => .expectName _) roomy (by omega)) fun _ _ _ _ => ?_
        refine .ite .keyword (fun others shorter => ?_) (.pure_bind ?_)
        · refine .same (.map (.expectName _)) fun _ _ others left => ?_
          obtain ⟨_, _⟩ := left
          exact .same (settles_selection roomy (by omega)) fun _ _ _ _ => .pure rfl ⟨by omega, rfl⟩
        · exact .same (settles_selection roomy (by omega)) fun _ _ _ _ => .pure rfl ⟨by omega, rfl⟩
      case h_10 =>
        refine .bind (ihExpression tokens (by omega)) fun _ _ others shorter => ?_
        refine .ite .symbol (fun others shorter => ?_) (.pure rfl ⟨by omega, rfl⟩)
        exact .bind (ihExpression others (by omega)) fun _ _ _ _ => .pure rfl ⟨by omega, rfl⟩
    · intro _ _ _
      obtain ⟨ihStatement, ihBlock⟩ := ih roomy.less
      unfold block
      refine .skipNewlines fun _ others skipped => .peek fun _ _ _ _ => ?_
      dsimp only
      split
      · exact .pure rfl skipped
      · exact .pure rfl skipped
      · split
        · exact .pure rfl skipped
        · refine .bind (ihStatement others (by omega)) fun _ _ others _ => ?_
          exact .bind (ihBlock _ others (by omega)) fun _ _ _ _ => .pure rfl (by omega)

theorem settles_program (roomy : Roomy stage (extra + depth) room)
    (isEnough : 24 * weight tokens + 17 ≤ depth) :
    Settles stage stage.stmts (program depth) (program (extra + depth) room) tokens
      fun program _ rest => (∀ stmt ∈ program, stmt.isWritable = true) ∧ frontKind rest = .eof := by
  induction depth generalizing tokens with
  | zero => omega
  | succ _ ih =>
    rw [← Nat.add_assoc] at roomy ⊢
    unfold program
    refine .skipNewlines fun _ others _ => .ifAtEnd (fun ends => ?_) ?_
    · exact .pure rfl ⟨by simp, ends⟩
    · refine .bind ((settles_written roomy.less).1 others (by omega)) fun _ _ others isFirst => ?_
      exact .bind (ih roomy.less (by omega)) fun _ _ _ areRest =>
        .pure rfl ⟨List.forall_mem_cons.mpr ⟨isFirst.2, areRest.1⟩, areRest.2⟩

end Types

theorem settles_depthFor (stage : Stage) (room : Room) (deep : depthFor tokens ≤ larger)
    (roomy : Roomy stage larger room) :
    Settles stage stage.stmts (program (depthFor tokens)) (program larger room) tokens
      fun program _ rest => (∀ stmt ∈ program, stmt.isWritable = true) ∧ frontKind rest = .eof := by
  obtain ⟨_, rfl⟩ := Nat.exists_eq_add_of_le' deep
  exact settles_program roomy (by rw [depthFor_eq]; omega)

theorem depthFor_unfiled : depthFor (tokens.map Token.unfiled) = depthFor tokens := by
  rw [depthFor, List.foldr_map]
  rfl

end Parser

theorem Parser.Raised.ne_exhausted (raised : Parser.Raised whole cause) : cause ≠ .exhausted := by
  cases raised with
  | grammar =>
    intro same
    cases same
  | lexical _ _ failed => exact Lexer.scan_ne_exhausted failed

theorem Program.parse_ne_exhausted (failed : Program.parse source file = .error cause) :
    cause ≠ .exhausted := by
  unfold Program.parse at failed
  cases tokenized : tokenize source file with
  | error =>
    rw [tokenized] at failed
    cases failed
    exact Lexer.scan_ne_exhausted tokenized
  | ok tokens =>
    rw [tokenized] at failed
    change Except.bind (Parser.program (Parser.depthFor tokens) none tokens) _ = _ at failed
    cases read : Parser.program (Parser.depthFor tokens) none tokens with
    | ok =>
      rw [read] at failed
      cases failed
    | error =>
      rw [read] at failed
      cases failed
      have settles := Parser.settles_depthFor (.unfiled tokens) none
        (Nat.le_refl (Parser.depthFor tokens)) .unlimited
      exact (settles.raised_of_error (.all (Parser.isEnded_of_scan tokenized)) read).1.ne_exhausted

variable (parsed : Program.parse source file = .ok program)
include parsed

/-- What an accepted text consists of: the tokens that its program takes, and the rest that begins
with the end. -/
theorem Program.taken_of_parse :
    ∃ used rest, tokenize source file = .ok (used ++ rest) ∧
      (∀ token ∈ used, Parser.Taken token.kind) ∧ Parser.frontKind rest = .eof ∧
      (∀ stmt ∈ program, stmt.isWritable = true) ∧
      Parser.program (Parser.depthFor (used ++ rest)) none ((used ++ rest).map Token.unfiled) =
        .ok (Stmt.listUnfiled program, rest.map Token.unfiled) := by
  obtain ⟨tokens, tokenized, read⟩ := ok_of_bind parsed
  obtain ⟨outcome, isRead, ended⟩ := ok_of_bind read
  cases ended
  have settles := Parser.settles_depthFor (.unfiled tokens) none
        (Nat.le_refl (Parser.depthFor tokens)) .unlimited
  obtain ⟨⟨used, rfl, taken, areWritable, ends⟩, read'⟩ :=
    settles.read_of_ok (.all (Parser.isEnded_of_scan tokenized)) isRead
  refine ⟨used, outcome.2, tokenized, taken, ends, areWritable, ?_⟩
  exact read'.resolve_right (·.1)

theorem Program.isWritable_of_parse (member : stmt ∈ program) : stmt.isWritable = true := by
  obtain ⟨_, _, _, _, _, areWritable, _⟩ := Program.taken_of_parse parsed
  exact areWritable stmt member

theorem Program.parse_unfiled : Program.parse source = .ok (Stmt.listUnfiled program) := by
  obtain ⟨used, rest, tokenized, _, _, _, read⟩ := Program.taken_of_parse parsed
  rw [← Parser.depthFor_unfiled] at read
  have tokenized' : tokenize source = .ok ((used ++ rest).map Token.unfiled) :=
    Lexer.scan_unfiled tokenized
  rw [Program.parse, tokenized']
  change Except.bind (Parser.program _ none ((used ++ rest).map Token.unfiled)) _ = _
  rw [read]
  rfl

end Noxy
