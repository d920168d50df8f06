import Mana.Proofs.CursorCalls
import Mana.Proofs.Nesting.Limit
import Mana.Proofs.Rendering
import Mana.Proofs.TokenListing
import Mana.Session

/-! Sessions as transducers of lines. What a line prints depends on its text and on how often the modes were switched
before, and a source is answered as it is rendered. A session ends before its lines do at a request to leave, or at a
program for which there is no room on the stack. -/
namespace Mana.Session

/-- How the lines of a session run out: at the end of the input, or because the user breaks it off. -/
inductive Ending where
  | input | interrupt

/-- What is printed where the lines run out, on a line of its own after the prompt. -/
def Ending.output : Ending → Text
  | input | interrupt => Text.closed [[], farewell]

/-- All that may come of a session. A line would end it, with anything printed, if the cursor that reads its source
failed in some call for a token. -/
inductive Held (stack : Stack) (ending : Ending) : Modes → List Text → Transcript → Prop where
  | ended : Held stack ending modes [] ⟨[ending.output], false⟩
  | left (leaves : Request.ofLine line = .leave) : Held stack ending modes (line :: rest) ⟨[Text.closed [farewell]], false⟩
  | cut (shows : Request.ofLine line = .show source) (called : call ∈ Cursor.calls ⟨source, 0, .start⟩ count)
      (failed : call.1 = .error fault) : Held stack ending modes (line :: rest) ⟨[printed], crashed⟩
  | crashed (crashed : ((Request.ofLine line).reply stack modes).crashed = true) :
      Held stack ending modes (line :: rest) ⟨[((Request.ofLine line).reply stack modes).printed], true⟩
  | answered (stays : Request.ofLine line ≠ .leave) (whole : ((Request.ofLine line).reply stack modes).crashed = false)
      (others : Held stack ending (modes.after (Request.ofLine line)) rest transcript) :
      Held stack ending modes (line :: rest) (transcript.behind ((Request.ofLine line).reply stack modes).printed)

theorem replies_leave (leaves : Request.ofLine line = .leave) :
    replies stack modes (line :: rest) = ⟨[Text.closed [farewell]], false⟩ := by
  rw [replies, leaves]
  rfl

theorem replies_crashed (crashed : ((Request.ofLine line).reply stack modes).crashed = true) :
    replies stack modes (line :: rest) = ⟨[((Request.ofLine line).reply stack modes).printed], true⟩ := by
  rw [replies, crashed, Bool.or_true, if_pos rfl]

theorem replies_answered (stays : Request.ofLine line ≠ .leave)
    (whole : ((Request.ofLine line).reply stack modes).crashed = false) :
    replies stack modes (line :: rest) = (replies stack (modes.after (Request.ofLine line)) rest).behind
      ((Request.ofLine line).reply stack modes).printed := by
  rw [replies, whole, Bool.or_false, decide_eq_false stays]
  rfl

/-- What comes of a session is told by its lines, since the tokens of every source can be read. -/
theorem held_iff {ending : Ending} : Held stack ending modes lines transcript ↔ transcript = replies stack modes lines := by
  constructor
  · intro held
    induction held with
    | ended => cases ending <;> rfl
    | left leaves => rw [replies_leave leaves]
    | cut _ called failed =>
      obtain ⟨token, answered⟩ := Cursor.calls_answered (Cursor.inside_of_le (Int.le_refl 0)) _ _ called
      cases answered.symm.trans failed
    | crashed crashed => rw [replies_crashed crashed]
    | answered stays whole _ ih => rw [replies_answered stays whole, ih]
  · rintro rfl
    induction lines generalizing modes with
    | nil => cases ending <;> exact .ended
    | cons line rest ih =>
      by_cases leaves : Request.ofLine line = .leave
      · rw [replies_leave leaves]
        exact .left leaves
      · cases crashed : ((Request.ofLine line).reply stack modes).crashed with
        | true =>
          rw [replies_crashed crashed]
          exact .crashed crashed
        | false =>
          rw [replies_answered leaves crashed]
          exact .answered leaves crashed ih

/-- The texts of lines that are commands. -/
def commands : List Text := ["exit".toList, "quit".toList, "tokens-mode".toList, "verbose-mode".toList]

/-- A line that asks to leave. -/
def Leaves (line : Text) : Prop := line.stripped = "exit".toList ∨ line.stripped = "quit".toList

instance (line : Text) : Decidable (Leaves line) := inferInstanceAs (Decidable (_ ∨ _))

/-- The modes flipped once for each text before that asks for it. -/
def Modes.flipped (modes : Modes) (before : List Text) : Modes where
  tokens := modes.tokens ^^ decide (before.count "tokens-mode".toList % 2 = 1)
  verbose := modes.verbose ^^ decide (before.count "verbose-mode".toList % 2 = 1)

/-- The answer to a source as it is rendered: the messages of the faults for which it is not, or its text, which comes
after its document in a verbose session. Where the stack does not hold one of these, it is the last that is not printed. -/
inductive Answered (stack : Stack) (verbose : Bool) (source : Text) : Reply → Prop where
  | faulty (refused : stack.render source .string = .error (.faults faults)) : Answered stack verbose source
      (.completed (Text.closed ("ParseError:".toList :: faults.map fun fault => '\t' :: fault.message)))
  | sound (program : stack.render source .string = .ok text)
      (document : verbose = true → stack.render source .json = .ok json) :
      Answered stack verbose source (.completed (Text.closed ((if verbose then [json] else []) ++ [text])))
  | undocumented (asked : verbose = true) (exhausted : stack.render source .json = .error .exhausted) :
      Answered stack verbose source ⟨[], true⟩
  | unshown (document : verbose = true → stack.render source .json = .ok json)
      (exhausted : stack.render source .string = .error .exhausted) :
      Answered stack verbose source ⟨Text.closed (if verbose then [json] else []), true⟩

theorem Reply.ofTexts_whole (texts : List Text) : ofTexts (texts.map some) = completed (Text.closed texts) := by
  induction texts with
  | nil => rfl
  | cons text texts ih =>
    rw [List.map_cons, ofTexts, ih]
    simp only [behind, completed, Text.closed, List.flatMap_cons, List.flatMap_nil, List.append_nil]

theorem Reply.ofTexts_short (texts : List Text) (rest : List (Option Text)) :
    ofTexts (texts.map some ++ none :: rest) = ⟨Text.closed texts, true⟩ := by
  induction texts with
  | nil => rfl
  | cons text texts ih =>
    rw [List.map_cons, List.cons_append, ofTexts, ih]
    simp only [behind, Text.closed, List.flatMap_cons, List.flatMap_nil, List.append_nil]

theorem answered_answer (stack : Stack) (verbose : Bool) (source : Text) :
    Answered stack verbose source (answer stack verbose source) := by
  rw [answer]
  by_cases clear : (parseWithin stack.nesting source).diagnostics = []
  · rw [parseStrictly_clear clear]
    have string : stack.render source .string = _ := Stack.render_of_clear nofun clear
    have json : stack.render source .json = _ := Stack.render_of_clear nofun clear
    dsimp only
    generalize (parseWithin stack.nesting source).program = program at string json
    cases verbose with
    | false =>
      rw [formats, if_neg Bool.false_ne_true, List.map_singleton]
      cases shown : stack.shown? program .string with
      | none =>
        rw [shown] at string
        exact (.unshown nofun string : Answered stack false source ⟨Text.closed (if false then [[]] else []), true⟩)
      | some text =>
        rw [shown] at string
        have sound : Answered stack false source (.completed (Text.closed ((if false then [[]] else []) ++ [text]))) :=
          .sound string nofun
        exact Reply.ofTexts_whole [text] ▸ sound
    | true =>
      rw [formats, if_pos rfl, List.map_cons, List.map_singleton]
      cases documented : stack.shown? program .json with
      | none =>
        rw [documented] at json
        exact .undocumented rfl json
      | some document =>
        rw [documented] at json
        cases shown : stack.shown? program .string with
        | none =>
          rw [shown] at string
          exact Reply.ofTexts_short [document] [] ▸ .unshown (fun _ => json) string
        | some text =>
          rw [shown] at string
          exact Reply.ofTexts_whole [document, text] ▸ .sound string fun _ => json
  · rw [parseStrictly_faulty clear]
    simp only [errorListing, List.map_map]
    exact .faulty (Stack.render_of_faulty nofun clear)

/-- Whether the stack does not hold what is shown of a source. -/
def Overflows (stack : Stack) (verbose : Bool) (source : Text) : Prop :=
  stack.render source .string = .error .exhausted ∨ verbose = true ∧ stack.render source .json = .error .exhausted

theorem Answered.crashed_iff (answered : Answered stack verbose source reply) :
    reply.crashed = true ↔ Overflows stack verbose source := by
  cases answered with
  | faulty refused =>
    obtain ⟨_, faulty, _⟩ := Stack.render_faults refused
    have string : stack.render source .string = _ := Stack.render_of_faulty nofun faulty
    have json : stack.render source .json = _ := Stack.render_of_faulty nofun faulty
    simp [Overflows, Reply.completed, string, json]
  | sound program document =>
    refine iff_of_false Bool.false_ne_true ?_
    rintro (exhausted | ⟨asked, exhausted⟩)
    · cases program.symm.trans exhausted
    · cases (document asked).symm.trans exhausted
  | undocumented asked exhausted => exact iff_of_true rfl (.inr ⟨asked, exhausted⟩)
  | unshown _ exhausted => exact iff_of_true rfl (.inl exhausted)

theorem newline_not_mem_description (token : Token) : '\n' ∉ token.description := by
  have printable : ∀ c ∈ token.description, isPrintable c = true :=
    List.forall_mem_append.mpr ⟨List.forall_mem_append.mpr ⟨List.forall_mem_append.mpr
      ⟨List.forall_mem_append.mpr ⟨List.all_eq_true.mp (by decide), token.kind.name_printable⟩,
        List.all_eq_true.mp (by decide)⟩, quoted_printable token.literal⟩, List.all_eq_true.mp (by decide)⟩
  exact fun newline => absurd (printable _ newline) (by decide)

/-- The request of a text without blanks at its ends. -/
def Request.ofText (text : Text) : Request :=
  if text = "exit".toList || text = "quit".toList then .leave
  else if text.isEmpty then .nothing
  else if text = "tokens-mode".toList then .toggleTokens
  else if text = "verbose-mode".toList then .toggleVerbose
  else .show text

/-- The reply to a text in some modes. -/
def reply (stack : Stack) (modes : Modes) (text : Text) : Reply := (Request.ofText text).reply stack modes

theorem Request.ofLine_eq (line : Text) : ofLine line = ofText line.stripped := rfl

theorem Request.ofText_leave : ofText text = .leave ↔ text = "exit".toList ∨ text = "quit".toList := by
  have asks : (decide (text = "exit".toList) || decide (text = "quit".toList)) = true ↔
      text = "exit".toList ∨ text = "quit".toList := by
    rw [Bool.or_eq_true, decide_eq_true_iff, decide_eq_true_iff]
  rw [ofText]
  split
  · rename_i leaves
    exact ⟨fun _ => asks.mp leaves, fun _ => rfl⟩
  · rename_i stays
    refine ⟨fun leave => ?_, fun leaves => absurd (asks.mpr leaves) stays⟩
    split at leave
    · cases leave
    · split at leave
      · cases leave
      · split at leave <;> cases leave

theorem Request.ofText_source (other : source ∉ commands) (visible : source ≠ []) : ofText source = .show source := by
  simp only [commands, List.mem_cons, List.not_mem_nil, or_false, not_or] at other
  obtain ⟨exit, quit, tokens, verbose⟩ := other
  rw [ofText, decide_eq_false exit, decide_eq_false quit, if_neg tokens, if_neg verbose]
  cases source with
  | nil => exact absurd rfl visible
  | cons c rest => rfl

theorem Modes.flipped_nil (modes : Modes) : modes.flipped [] = modes := by
  simp only [flipped, List.count_nil, Nat.zero_mod, Nat.zero_ne_one, decide_false, Bool.xor_false]

private theorem odd_add (first second : Nat) :
    decide ((first + second) % 2 = 1) = (decide (first % 2 = 1) ^^ decide (second % 2 = 1)) := by
  rcases Nat.mod_two_eq_zero_or_one first with even | odd <;> rcases Nat.mod_two_eq_zero_or_one second with even' | odd' <;>
    simp [Nat.add_mod, *]

theorem Modes.flipped_cons (modes : Modes) (text : Text) (later : List Text) :
    modes.flipped (text :: later) = (modes.flipped [text]).flipped later := by
  have counted (command : Text) : (text :: later).count command = [text].count command + later.count command := by
    rw [← List.singleton_append, List.count_append]
  simp only [flipped, counted, odd_add, Bool.xor_assoc]

theorem Modes.flipped_other (modes : Modes) (tokens : text ≠ "tokens-mode".toList) (verbose : text ≠ "verbose-mode".toList) :
    modes.flipped [text] = modes := by
  have never (command : Text) (other : text ≠ command) : [text].count command = 0 :=
    List.count_eq_zero_of_not_mem (by rw [List.mem_singleton]; exact Ne.symm other)
  simp only [flipped, never _ tokens, never _ verbose, Nat.zero_mod, Nat.zero_ne_one, decide_false, Bool.xor_false]

theorem Modes.after_ofText (modes : Modes) (text : Text) : modes.after (Request.ofText text) = modes.flipped [text] := by
  by_cases tokens : text = "tokens-mode".toList
  · subst tokens
    rcases modes with ⟨_ | _, _ | _⟩ <;> decide
  · by_cases verbose : text = "verbose-mode".toList
    · subst verbose
      rcases modes with ⟨_ | _, _ | _⟩ <;> decide
    · rw [flipped_other modes tokens verbose, Request.ofText, if_neg tokens, if_neg verbose]
      split
      · rfl
      · split <;> rfl

/-- A line that is no command asks for more than the stack holds. -/
structure Exhausts (stack : Stack) (modes : Modes) (line : Text) : Prop where
  free : line.stripped ∉ commands
  visible : line.stripped ≠ []
  overflows : Overflows stack modes.verbose line.stripped

theorem reply_command (command : text ∈ commands) : (reply stack modes text).crashed = false := by
  simp only [commands, List.mem_cons, List.not_mem_nil, or_false] at command
  rcases command with rfl | rfl | rfl | rfl <;> rfl

theorem crashed_iff : (reply stack modes line.stripped).crashed = true ↔ Exhausts stack modes line := by
  constructor
  · intro crashed
    have free : line.stripped ∉ commands := fun command => by cases crashed.symm.trans (reply_command command)
    have visible : line.stripped ≠ [] := fun blank => by rw [blank] at crashed; cases crashed
    rw [reply, Request.ofText_source free visible] at crashed
    exact ⟨free, visible, (answered_answer stack modes.verbose line.stripped).crashed_iff.mp crashed⟩
  · rintro ⟨free, visible, overflows⟩
    rw [reply, Request.ofText_source free visible]
    exact (answered_answer stack modes.verbose line.stripped).crashed_iff.mpr overflows

/-- The replies to lines one after the other. -/
def printouts (stack : Stack) (modes : Modes) (lines : List Text) : List Text :=
  lines.mapIdx fun index line =>
    (reply stack (modes.flipped ((lines.take index).map Text.stripped)) line.stripped).printed

theorem printouts_cons (stack : Stack) (modes : Modes) (line : Text) (rest : List Text) :
    printouts stack modes (line :: rest) =
      (reply stack modes line.stripped).printed :: printouts stack (modes.flipped [line.stripped]) rest := by
  simp only [printouts, List.mapIdx_cons, List.take_zero, List.map_nil, Modes.flipped_nil, List.take_succ_cons,
    List.map_cons, ← Modes.flipped_cons]

/-- Lines of which none leaves or asks for more than the stack holds, in the modes flipped by the lines before it. -/
def Steady (stack : Stack) (modes : Modes) (lines : List Text) : Prop :=
  ∀ before line rest, lines = before ++ line :: rest →
    ¬ Leaves line ∧ ¬ Exhausts stack (modes.flipped (before.map Text.stripped)) line

theorem Steady.cons (stays : ¬ Leaves line) (whole : ¬ Exhausts stack modes line)
    (steady : Steady stack (modes.flipped [line.stripped]) rest) : Steady stack modes (line :: rest) := by
  intro before last others split
  cases before with
  | nil =>
    cases split
    exact ⟨stays, (Modes.flipped_nil modes).symm ▸ whole⟩
  | cons first before =>
    cases split
    rw [List.map_cons, Modes.flipped_cons]
    exact steady before last others rfl

/-- The course of a session: its lines are all replied to, or those before one that leaves, or those before one that asks
for more than the stack holds, which is replied to as far as it goes. -/
inductive Course (stack : Stack) (ending : Ending) (modes : Modes) (lines : List Text) : Transcript → Prop where
  | through (steady : Steady stack modes lines) :
      Course stack ending modes lines ⟨printouts stack modes lines ++ [ending.output], false⟩
  | left (split : lines = before ++ last :: rest) (steady : Steady stack modes before) (leaves : Leaves last) :
      Course stack ending modes lines ⟨printouts stack modes before ++ [Text.closed [farewell]], false⟩
  | crashed (split : lines = before ++ last :: rest) (steady : Steady stack modes before)
      (exhausts : Exhausts stack (modes.flipped (before.map Text.stripped)) last) :
      Course stack ending modes lines ⟨printouts stack modes before ++
        [(reply stack (modes.flipped (before.map Text.stripped)) last.stripped).printed], true⟩

theorem Steady.nil (stack : Stack) (modes : Modes) : Steady stack modes [] := by
  intro before line rest split
  cases before <;> cases split

theorem Course.cons {ending : Ending} (stays : ¬ Leaves line) (whole : ¬ Exhausts stack modes line)
    (course : Course stack ending (modes.flipped [line.stripped]) rest transcript) :
    Course stack ending modes (line :: rest) (transcript.behind (reply stack modes line.stripped).printed) := by
  cases course with
  | through steady =>
    rw [Transcript.behind, ← List.cons_append, ← printouts_cons]
    exact .through (.cons stays whole steady)
  | left split steady leaves =>
    rw [Transcript.behind, ← List.cons_append, ← printouts_cons, split]
    exact .left rfl (.cons stays whole steady) leaves
  | crashed split steady exhausts =>
    rw [Transcript.behind, ← List.cons_append, ← printouts_cons, split, ← Modes.flipped_cons, ← List.map_cons]
    rw [← Modes.flipped_cons, ← List.map_cons] at exhausts
    exact .crashed rfl (.cons stays whole steady) exhausts

theorem course (stack : Stack) (ending : Ending) (modes : Modes) (lines : List Text) :
    Course stack ending modes lines (replies stack modes lines) := by
  induction lines generalizing modes with
  | nil => cases ending <;> exact .through (.nil stack modes)
  | cons line rest ih =>
    by_cases leaves : Leaves line
    · rw [replies_leave (Request.ofText_leave.mpr leaves)]
      exact .left (List.nil_append _).symm (.nil stack modes) leaves
    · have stays : Request.ofLine line ≠ .leave := fun leave => leaves (Request.ofText_leave.mp leave)
      by_cases exhausts : Exhausts stack modes line
      · rw [replies_crashed (crashed_iff.mpr exhausts)]
        have last : Exhausts stack (modes.flipped []) line := (Modes.flipped_nil modes).symm ▸ exhausts
        have here : Course stack ending modes (line :: rest) _ := .crashed (List.nil_append _).symm (.nil stack modes) last
        rw [List.map_nil, Modes.flipped_nil] at here
        exact here
      · have whole : (reply stack modes line.stripped).crashed = false :=
          Bool.eq_false_iff.mpr fun crashed => exhausts (crashed_iff.mp crashed)
        rw [replies_answered stays whole, Request.ofLine_eq, Modes.after_ofText]
        exact .cons leaves exhausts (ih _)

theorem Answered.elsewhere {other : Stack} (answered : Answered stack verbose source shown)
    (enough : stack.Suffices source) (room : other.Suffices source) : Answered other verbose source shown := by
  cases answered with
  | faulty refused => exact .faulty ((enough.render_eq room).symm.trans refused)
  | sound program document =>
    exact .sound ((enough.render_eq room).symm.trans program) fun asked => (enough.render_eq room).symm.trans (document asked)
  | undocumented asked exhausted => exact .undocumented asked ((enough.render_eq room).symm.trans exhausted)
  | unshown document exhausted =>
    exact .unshown (fun asked => (enough.render_eq room).symm.trans (document asked))
      ((enough.render_eq room).symm.trans exhausted)

/-- A session replies to its lines up to the first one that leaves or asks for more than the stack holds, or to all of them.
Nothing else may come of it. A reply depends on the text of the line and on the modes flipped by the lines before, and to a
source it is its tokens, if these are asked for, and the answer to it as it is rendered, there or wherever there is room. -/
theorem session_transduces (stack : Stack) (user : Option Text) (modes : Modes) (ending : Ending) (lines : List Text) :
    ∃ transcript, run stack user modes lines = transcript.behind (welcome user) ∧
      (∀ other, Held stack ending modes lines other ↔ other = transcript) ∧
      Course stack ending modes lines transcript ∧
      (∀ token : Token, '\n' ∉ token.description) ∧
      ∀ modes source, source ∉ commands → source ≠ [] → ∃ answer,
        reply stack modes source = answer.behind (if modes.tokens then
          Text.closed ((scan source).tokens.map fun token => "[token] >>> ".toList ++ token.description) else []) ∧
        Answered stack modes.verbose source answer ∧
        ∀ other : Stack, stack.Suffices source → other.Suffices source → Answered other modes.verbose source answer := by
  refine ⟨replies stack modes lines, rfl, fun other => held_iff, course stack ending modes lines,
    newline_not_mem_description, fun modes source free visible => ?_⟩
  have answered := answered_answer stack modes.verbose source
  refine ⟨answer stack modes.verbose source, ?_, answered, fun other enough room => answered.elsewhere enough room⟩
  rw [reply, Request.ofText_source free visible]
  rfl

/-- The tokens of a line are shown from the next one on, and a line behind the request to leave is not read. -/
theorem session_transduces_left :
    Leaves "quit\t".toList ∧
      Held .standard .interrupt ⟨false, true⟩ [" tokens-mode".toList, "let 5".toList, "quit\t".toList, "x".toList]
        ⟨["[mode] >>> Tokens mode ON\n".toList,
          ("[token] >>> Token(LET, 'let')\n[token] >>> Token(INT, '5')\n[token] >>> Token(EOF, '')\n" ++
            "ParseError:\n\texpected next token to be IDENT, got INT instead\n").toList,
          "Exiting Mana REPL.\n".toList], false⟩ := by
  obtain ⟨_, _, held, _⟩ := session_transduces .standard none ⟨false, true⟩ .interrupt
    [" tokens-mode".toList, "let 5".toList, "quit\t".toList, "x".toList]
  refine ⟨by decide, (held _).mpr ?_⟩
  rw [← (held _).mp (held_iff.mpr rfl)]
  decide +kernel

/-- A sum of many ones is no command and has no faults, and yet it ends a session before the line behind it. -/
theorem session_broken_off : ∃ line, ¬ Leaves line ∧ (parse line).diagnostics = [] ∧
    replies .standard ⟨false, true⟩ [line, "x".toList] = ⟨[[]], true⟩ := by
  refine ⟨(List.replicate 500 "1+".toList).flatten ++ ['1'], ?_, ?_, ?_⟩
  · decide +kernel
  · decide +kernel
  · decide +kernel

end Mana.Session
