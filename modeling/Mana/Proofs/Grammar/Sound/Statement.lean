import Mana.Proofs.Parse.Judged
import Mana.Proofs.Grammar.Derivation

/-! Soundness. Without a complaint the forms of the language read what its grammar derives, and the first
complaint comes after a word that the grammar still completes. -/
namespace Mana.Grammar

open Parse

/-! Judgements about words that forms derive. -/

/-- The words that the forms derive, whatever the result and the next token. -/
def Words (forms : List Form) : α → List Token → Token → Prop := fun _ word _ => Derives forms word

instance : Nonempty Node := ⟨.boolean none true⟩

variable {before middle after : Stage} {stream : TokenStream} {forms : List Form}

theorem viable_words [Nonempty α] (going : ∀ form ∈ forms, form ≠ .token .eof) :
    Viable (Words forms : α → List Token → Token → Prop) [] := by
  obtain ⟨word, derives, genuine⟩ := completable forms going
  exact ⟨word, Classical.arbitrary α, ⟨.eof, [], .start⟩, genuine, derives⟩

theorem judged_done (result : α) :
    (pure result : Parse α).Judged before before (Words []) stream := .pure result .nil

theorem judged_rule {parse : Parse α} {category : Category} (rule : List Form) (member : rule ∈ category.rules)
    (judged : parse.Judged before after (Words rule) stream) :
    parse.Judged before after (Words [.part category]) stream :=
  judged.imp fun _ _ _ derives => .part rule member ((List.append_nil rule).symm ▸ derives)

theorem judged_token {parse : Parse α} (kind : stream.current.kind = wanted) (going : wanted ≠ .eof)
    (range : stream.current.InRange) (judged : parse.Judged .read after (Words forms) stream) :
    parse.Judged .due after (Words (.token wanted :: forms)) stream :=
  .take (kind ▸ going) (judged.imp fun _ _ _ derives => .token kind range derives)

/-- A token that is no integer is always in range. -/
theorem judged_plain {parse : Parse α} (kind : stream.current.kind = wanted)
    (plain : wanted ≠ .eof ∧ wanted ≠ .int) (judged : parse.Judged .read after (Words forms) stream) :
    parse.Judged .due after (Words (.token wanted :: forms)) stream :=
  judged_token kind plain.1 (fun int => absurd (kind.symm.trans int) plain.2) judged

theorem judged_expect {follow : Unit → Parse α} {language : α → List Token → Token → Prop}
    (viable : Viable language [])
    (judged : stream.upcoming.kind = wanted → (follow ()).Judged .due after language stream.advanced) :
    (expect wanted >>= follow).Judged .read after language stream := by
  rw [expect_bind]
  refine .upcoming ?_
  split
  · rename_i same
    exact .advance (judged same)
  · exact .complain viable _ rfl

theorem judged_expect_plain [Nonempty α] {follow : Unit → Parse α}
    (going : ∀ form ∈ Form.token wanted :: forms, form ≠ .token .eof) (plain : wanted ≠ .eof ∧ wanted ≠ .int)
    (judged : (follow ()).Judged .read after (Words forms) stream.advanced) :
    (expect wanted >>= follow).Judged .read after (Words (.token wanted :: forms)) stream :=
  judged_expect (viable_words going) fun same => judged_plain (stream.upcoming_eq ▸ same) plain judged

theorem judged_bind [Nonempty β] {parse : Parse α} {follow : α → Parse β} {body : List Form}
    (first : parse.Judged before middle (Words body) stream) (going : ∀ form ∈ forms, form ≠ .token .eof)
    (second : ∀ result rest, (follow result).Judged middle after (Words forms) rest) :
    (parse >>= follow).Judged before after (Words (body ++ forms)) stream := by
  refine first.bind (fun result word next derives => ?_) fun result word rest derives =>
    (second result rest).imp fun _ _ _ more => derives.append more
  obtain ⟨completion, more, genuine⟩ := completable forms going
  exact ⟨completion, Classical.arbitrary β, next, genuine, derives.append more⟩

theorem judged_then [Nonempty β] {parse : Parse α} {follow : α → Parse β} {form : Form}
    (first : parse.Judged before middle (Words [form]) stream) (going : ∀ form ∈ forms, form ≠ .token .eof)
    (second : ∀ result rest, (follow result).Judged middle after (Words forms) rest) :
    (parse >>= follow).Judged before after (Words (form :: forms)) stream :=
  judged_bind first going second

/-- What is judged to read expressions is a parser of nested expressions that calls and operations may
still extend. -/
def Nested.Judges (nested : Nested) : Prop :=
  ∀ strength stream, (nested strength).Judged .due .read (fun _ word _ => Extensible word) stream

theorem Nested.Judges.whole {nested : Nested} (judges : nested.Judges) (stream : TokenStream) :
    (whole nested).Judged .due .read (Words [.part .expression]) stream :=
  (judges _ stream).imp fun _ _ _ => Extensible.derives

theorem judged_acceptSemicolon :
    acceptSemicolon.Judged .read .read (Words [.optional [.token .semicolon]]) stream := by
  refine .upcoming ?_
  split
  · rename_i same
    have reads : (advance >>= Pure.pure).Judged .read .read (Words [.token .semicolon]) stream :=
      .advance (judged_plain (stream.upcoming_eq ▸ same) (by decide) (judged_done ()))
    rw [bind_pure] at reads
    exact reads.imp fun _ _ _ derives => .within derives
  · exact .pure _ (.without .nil)

/-- A round of statements reads one, or ends at the closing token, which it leaves. -/
def Statements (closing : Kind) (word : List Token) (next : Token) : Prop :=
  Derives [.many [.part .statement]] word ∧ next.kind = closing

theorem statement_ne_nil (derives : Derives [.part .statement] word) : word ≠ [] := by
  rintro rfl
  simp [Derives.part_iff, Derives.many_iff, Derives.not_token_nil, Category.rules, unaryOperators] at derives

namespace Nested.Judges

variable {nested : Nested} (judges : nested.Judges)
include judges

theorem value (finish : Node → Node) :
    (Grammar.whole nested >>= fun value => acceptSemicolon >>= fun _ => pure (finish value)).Judged .due .read
      (Words [.part .expression, .optional [.token .semicolon]]) stream := by
  apply judged_then (judges.whole _) (by simp)
  intro value rest
  exact judged_then judged_acceptSemicolon (by simp) fun _ rest => judged_done _

theorem letStatement (kind : stream.current.kind = .letKeyword) :
    (letStatement nested).Judged .due .read (Words [.part .statement]) stream := by
  apply judged_rule [.token .letKeyword, .token .ident, .token .assign, .part .expression,
    .optional [.token .semicolon]] (by simp [Category.rules])
  refine .current (judged_plain kind (by decide) ?_)
  refine judged_expect (viable_words (by simp)) fun named => .current ?_
  apply judged_plain (stream.upcoming_eq ▸ named) (by decide)
  exact judged_expect_plain (by simp) (by decide) (.advance (judges.value _))

theorem returnStatement (kind : stream.current.kind = .returnKeyword) :
    (returnStatement nested).Judged .due .read (Words [.part .statement]) stream := by
  apply judged_rule [.token .returnKeyword, .part .expression, .optional [.token .semicolon]]
    (by simp [Category.rules])
  exact .current (judged_plain kind (by decide) (.advance (judges.value _)))

theorem expressionStatement :
    (expressionStatement nested).Judged .due .read (Words [.part .statement]) stream := by
  apply judged_rule [.part .expression, .optional [.token .semicolon]] (by simp [Category.rules])
  exact .current (judges.value _)

theorem statement : (statement nested).Judged .due .read (Words [.part .statement]) stream := by
  refine .current ?_
  split
  · rename_i kind
    exact judges.letStatement kind
  · split
    · rename_i kind
      exact judges.returnStatement kind
    · exact judges.expressionStatement

end Nested.Judges

/-! Rounds of statements. The grammar knows no recovery, and so the rounds are judged without it. -/

/-- A statement, after which its successor is due. -/
def strictItem (nested : Nested) : Parse (Gain Node) := do
  let statement ← statement nested
  advance
  return .item statement

/-- A round of a block that gives up with its statement. -/
def strictBlockRound (nested : Nested) : Parse (Gain Node) := do
  let token ← current
  if token.kind = .rbrace then return .stop
  else if token.kind = .eof then
    complain (.expected .rbrace .eof) token
    fail
  else strictItem nested

/-- A round of a program that gives up with its statement. -/
def strictProgramRound (nested : Nested) : Parse (Gain Node) := do
  let token ← current
  if token.kind = .eof then return .stop else strictItem nested

theorem resumes_attempt (parse : Parse α) {follow : Option α → Parse β} {next : α → Parse β}
    (same : ∀ result, follow (some result) = next result) (stream : TokenStream) :
    ((attempt parse >>= follow).run stream).Resumes ((parse >>= next).run stream) := by
  rcases observed : parse.run stream with ⟨outcome, rest, found⟩
  simp only [run_bind, attempt, observed]
  cases outcome with
  | done result => exact .inl (by rw [Step.andThen_done, Step.andThen_done, same])
  | failed => exact .inr ⟨nofun, ⟨_, rfl⟩, nofun⟩
  | struck => exact .inr ⟨nofun, ⟨[], (List.append_nil _).symm⟩, fun _ => .inl rfl⟩

theorem resumes_orWhenStruck (parse : Parse α) {remedy : Parse (Option α)} {follow : Option α → Parse β}
    {next : α → Parse β} (same : ∀ result, follow (some result) = next result)
    (complains : ∀ stream, (remedy.run stream).Strikes) (stream : TokenStream) :
    ((orWhenStruck (attempt parse) remedy >>= follow).run stream).Resumes ((parse >>= next).run stream) := by
  rcases observed : parse.run stream with ⟨outcome, rest, found⟩
  simp only [run_bind, orWhenStruck, attempt, observed]
  cases outcome with
  | done result => exact .inl (by rw [Step.andThen_done, Step.andThen_done, same])
  | failed => exact .inr ⟨fun _ done => (by cases done), ⟨_, rfl⟩, fun struck => (by cases struck)⟩
  | struck =>
    refine .inr ⟨fun _ done => (by cases done), ?_, fun _ => ((complains rest).since found).andThen _⟩
    obtain ⟨later, extended⟩ := found_andThen ((remedy.run rest).since found) fun result => (follow result).run
    exact ⟨(remedy.run rest).found ++ later, by rw [extended, Step.found_since, List.append_assoc]; rfl⟩

theorem blockRound_resumes (nested : Nested) (stream : TokenStream) :
    ((blockRound nested).run stream).Resumes ((strictBlockRound nested).run stream) := by
  simp only [blockRound, strictBlockRound, run_position_bind, run_current_bind]
  split
  · exact .inl rfl
  · split
    · exact .inl rfl
    · exact resumes_attempt (statement nested) (fun _ => rfl) stream

theorem programRound_resumes (nested : Nested) (stream : TokenStream) :
    ((programRound nested).run stream).Resumes ((strictProgramRound nested).run stream) := by
  simp only [programRound, strictProgramRound, run_position_bind, run_current_bind]
  split
  · exact .inl rfl
  · refine resumes_orWhenStruck (statement nested) (fun _ => rfl) (fun rest => ?_) stream
    exact .inr ⟨_, List.mem_append_left _ (List.mem_singleton.mpr rfl), rfl⟩

theorem prolongs_item (derives : Derives [.part .statement] word) (node : Node) (closing : Kind)
    (next : Token) :
    (Gain.item node).Prolongs (Statements closing) word next :=
  ⟨statement_ne_nil derives, fun _ _ ⟨more, kind⟩ => ⟨.again (derives.append more), kind⟩⟩

theorem viable_statements (closing : Kind) :
    ∃ completion next, (∀ token ∈ completion, token.Genuine) ∧ Statements closing completion next :=
  ⟨[], ⟨closing, [], .start⟩, by simp, .enough .nil, rfl⟩

namespace Nested.Judges

variable {nested : Nested} (judges : nested.Judges)
include judges

theorem item (closing : Kind) :
    (strictItem nested).Judged .due .due (Gain.Prolongs (Statements closing)) stream := by
  refine judges.statement.bind (fun node word next derives => ?_) fun node word rest derives => ?_
  · exact .of_member _ _ (prolongs_item derives node closing next)
  · refine .advance (.pure _ ?_)
    rw [List.append_nil]
    exact prolongs_item derives node closing _

theorem blockRound :
    (blockRound nested).Judged .due .due (Gain.Prolongs (Statements .rbrace)) stream := by
  refine .resumed (.current ?_) (blockRound_resumes nested)
  split
  · rename_i kind
    exact .pure _ ⟨.enough .nil, kind⟩
  · split
    · obtain ⟨completion, next, genuine, member⟩ := viable_statements .rbrace
      exact .complain ⟨completion, .stop, next, genuine, member⟩ _ rfl
    · exact judges.item .rbrace

theorem block (kind : stream.current.kind = .lbrace) :
    (block nested).Judged .due .read (Words [.part .block]) stream := by
  apply judged_rule [.token .lbrace, .many [.part .statement], .token .rbrace] (by simp [Category.rules])
  refine .current (judged_plain kind (by decide) (.advance ?_))
  refine (Judged.collect (viable_statements .rbrace) fun _ => judges.blockRound).bind
    (fun statements word next member => ?_) fun statements word rest member => ?_
  · obtain ⟨completion, more, genuine⟩ := completable [.token .rbrace] (by simp)
    exact ⟨completion, .block none statements, next, genuine, member.1.append more⟩
  · refine Judged.imp ?_ fun _ _ _ more => member.1.append more
    exact judged_plain member.2 (by decide) (judged_done _)

theorem programRound :
    (programRound nested).Judged .due .due (Gain.Prolongs (Statements .eof)) stream := by
  refine .resumed (.current ?_) (programRound_resumes nested)
  split
  · rename_i kind
    exact .pure _ ⟨.enough .nil, kind⟩
  · exact judges.item .eof

/-- A program reads all tokens before the end. -/
theorem program :
    (program nested).Judged .due .due (fun _ => Statements .eof) stream := by
  refine .current ((Judged.collect (viable_statements .eof) fun _ => judges.programRound).bind
    (fun statements word next member => ?_) fun statements word rest member => ?_)
  · exact .of_member (.program none statements) next member
  · exact .pure _ (by rwa [List.append_nil])

end Nested.Judges

end Mana.Grammar
