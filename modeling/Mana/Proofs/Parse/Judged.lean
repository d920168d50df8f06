import Mana.Proofs.Parse.Reads
import Mana.Proofs.Token.Lexical

/-! Judgements of a step on a stream: it strikes the limit on nesting, or reads a word that a language
allows, or rejects a token after a word that can still be completed. What it reads or rejects does not
depend on the tokens that come later. -/
namespace Mana.Parse

/-- Genuine tokens complete the word to one that the language allows. A language says which words go
with a result and with the token after them. -/
def Viable (language : α → List Token → Token → Prop) (word : List Token) : Prop :=
  ∃ completion result next, (∀ token ∈ completion, token.Genuine) ∧
    language result (word ++ completion) next

theorem Viable.mono {language : α → List Token → Token → Prop} {larger : β → List Token → Token → Prop}
    {longer : List Token} (viable : Viable language word)
    (within : ∀ result later next, language result (word ++ later) next →
      Viable larger (longer ++ later)) : Viable larger longer := by
  obtain ⟨completion, result, next, genuine, member⟩ := viable
  obtain ⟨further, final, last, genuine', member'⟩ := within result completion next member
  refine ⟨completion ++ further, final, last, fun token member => ?_, ?_⟩
  · exact (List.mem_append.mp member).elim (genuine token) (genuine' token)
  · rwa [← List.append_assoc]

theorem Viable.of_member {language : α → List Token → Token → Prop} (result : α)
    (next : Token) (member : language result word next) :
    Viable language word :=
  ⟨[], result, next, by simp, by rwa [List.append_nil]⟩

inductive Judged (parse : Parse α) (before after : Stage) (language : α → List Token → Token → Prop)
    (stream : TokenStream) : Prop where
  | struck (strikes : (parse.run stream).Strikes)
  | reads (word : List Token) (result : α) (next : Token) (more : List Token)
      (split : stream.left before = word ++ next :: more) (member : language result word next)
      (reads : ∀ others, parse.Reads before after (word ++ next :: others) result (next :: others))
  | rejects (word : List Token) (offender : Token) (more : List Token)
      (split : stream.left before = word ++ offender :: more) (viable : Viable language word)
      (rejects : ∀ others, parse.Rejects before (word ++ offender :: others) offender)

/-- A round of a loop ends it with a word of the language, or reads what may come before one. -/
def Round.Prolongs (language : α → List Token → Token → Prop) : Round σ α → List Token → Token → Prop
  | .stop result, word, next => language result word next
  | .again _ finish, word, _ => word ≠ [] ∧ ∀ result later next, language result later next →
      language (finish result) (word ++ later) next

/-- A round of a collection ends it with a word of the language, or reads what may come before one. -/
def Gain.Prolongs (language : List Token → Token → Prop) : Gain α → List Token → Token → Prop
  | .stop, word, next => language word next
  | .nothing, _, _ => False
  | .item _, word, _ => word ≠ [] ∧ ∀ later next, language later next → language (word ++ later) next

namespace Judged

variable {before middle after : Stage} {stream : TokenStream} {language : α → List Token → Token → Prop}

theorem imp {parse : Parse α} {larger : α → List Token → Token → Prop}
    (judged : parse.Judged before after language stream)
    (within : ∀ result word next, language result word next → larger result word next) :
    parse.Judged before after larger stream := by
  cases judged with
  | struck strikes => exact .struck strikes
  | reads word result next more split member reads =>
    exact .reads word result next more split (within _ _ _ member) reads
  | rejects word offender more split viable rejects =>
    exact .rejects word offender more split (viable.mono fun _ _ _ member => .of_member _ _ (within _ _ _ member))
      rejects

theorem pure (result : α) (member : language result [] (stream.next before)) :
    (pure result : Parse α).Judged before before language stream := by
  obtain ⟨more, split⟩ := stream.left_eq before
  exact .reads [] result _ more split member fun _ => .pure _ _ _

theorem complain (viable : Viable language []) (fault : Fault) (next : stream.next before = token) :
    (complain fault token >>= fun _ => (fail : Parse α)).Judged before after language stream := by
  obtain ⟨more, split⟩ := stream.left_eq before
  exact .rejects [] token more (next ▸ split) viable fun _ => .complain _ _ _ _

/-- What comes after a word does not change its first token, or the one after an empty word. -/
private theorem shared {first next : Token} {more word later : List Token}
    (same : first :: more = word ++ next :: later) (others : List Token) :
    ∃ tail, word ++ next :: others = first :: tail := by
  cases word with
  | nil =>
    cases same
    exact ⟨others, rfl⟩
  | cons token rest =>
    cases same
    exact ⟨rest ++ next :: others, rfl⟩

theorem after_reads {parse : Parse α} {follow : α → Parse β} {language : β → List Token → Token → Prop}
    {next : Token} {more : List Token} (word : List Token) (split : stream.left before = word ++ next :: more)
    (reads : ∀ others, parse.Reads before middle (word ++ next :: others) result (next :: others))
    (second : ∀ rest, parse.run stream = ⟨.done result, rest, []⟩ → rest.left middle = next :: more →
      (follow result).Judged middle after (fun final later => language final (word ++ later)) rest) :
    (parse >>= follow).Judged before after language stream := by
  obtain ⟨rest, ran, left⟩ := reads more stream split
  cases second rest ran left with
  | struck strikes =>
    refine .struck ?_
    rwa [run_bind_done ran, Step.since_nil]
  | reads later final last tail split' member reads' =>
    rw [left] at split'
    refine .reads (word ++ later) final last tail (by rw [split, split', List.append_assoc]) member ?_
    intro others
    obtain ⟨shared, same⟩ := shared split' others
    have second := reads' others
    rw [List.append_assoc, same]
    exact .bind (reads shared) (same ▸ second)
  | rejects later offender tail split' viable rejects =>
    rw [left] at split'
    obtain ⟨completion, final, last, genuine, member⟩ := viable
    refine .rejects (word ++ later) offender tail (by rw [split, split', List.append_assoc])
      ⟨completion, final, last, genuine, by rwa [List.append_assoc]⟩ ?_
    intro others
    obtain ⟨shared, same⟩ := shared split' others
    have second := rejects others
    rw [List.append_assoc, same]
    exact .bind_reads (reads shared) (same ▸ second)

theorem bind {parse : Parse α} {follow : α → Parse β} {larger : β → List Token → Token → Prop}
    (first : parse.Judged before middle language stream)
    (viable : ∀ result word next, language result word next → Viable larger word)
    (second : ∀ result word (rest : TokenStream), language result word (rest.next middle) →
      (follow result).Judged middle after (fun final later => larger final (word ++ later)) rest) :
    (parse >>= follow).Judged before after larger stream := by
  cases first with
  | struck strikes => exact .struck (strikes.andThen _)
  | reads word result next more split member reads =>
    exact .after_reads word split reads fun rest _ left =>
      second result word rest (rest.next_eq left ▸ member)
  | rejects word offender more split viable' rejects =>
    exact .rejects word offender more split (viable'.mono fun _ _ _ member => viable _ _ _ member)
      fun others => (rejects others).bind follow

theorem current {follow : Token → Parse α}
    (judged : (follow stream.current).Judged .due after language stream) :
    (current >>= follow).Judged .due after language stream := by
  obtain ⟨more, split⟩ := stream.left_eq .due
  refine .after_reads [] split (fun _ => .current _ _) ?_
  intro rest ran _
  cases ran
  exact judged

theorem upcoming {follow : Token → Parse α}
    (judged : (follow stream.upcoming).Judged .read after language stream) :
    (upcoming >>= follow).Judged .read after language stream := by
  obtain ⟨more, split⟩ := stream.left_eq .read
  refine .after_reads [] split (fun _ => .upcoming _ _) ?_
  intro rest ran _
  cases ran
  exact judged

theorem advance {follow : Unit → Parse α} (judged : (follow ()).Judged .due after language stream.advanced) :
    (advance >>= follow).Judged .read after language stream := by
  obtain ⟨more, split⟩ := stream.left_eq .read
  refine .after_reads [] split (fun _ => .advance _) ?_
  intro rest ran _
  cases ran
  exact judged

private theorem exists_first (word : List Token) (next : Token) (others : List Token) :
    ∃ first rest, word ++ next :: others = first :: rest :=
  List.exists_cons_of_ne_nil (List.append_ne_nil_of_right_ne_nil word (List.cons_ne_nil next others))

theorem take {parse : Parse α} (going : stream.current.kind ≠ .eof)
    (judged : parse.Judged .read after (fun result word => language result (stream.current :: word)) stream) :
    parse.Judged .due after language stream := by
  have here : stream.left .due = stream.current :: stream.left .read := stream.tokens_of_going going
  cases judged with
  | struck strikes => exact .struck strikes
  | reads word result next more split member reads =>
    refine .reads (stream.current :: word) result next more (by rw [here, split]; rfl) member ?_
    intro others
    obtain ⟨first, rest, same⟩ := exists_first word next others
    have later := reads others
    rw [same] at later
    rw [List.cons_append, same]
    exact later.take _
  | rejects word offender more split viable rejects =>
    refine .rejects (stream.current :: word) offender more (by rw [here, split]; rfl) viable ?_
    intro others
    obtain ⟨first, rest, same⟩ := exists_first word offender others
    have later := rejects others
    rw [same] at later
    rw [List.cons_append, same]
    exact later.take _

theorem resumed {parse strict : Parse α} (judged : strict.Judged before after language stream)
    (resumes : ∀ stream, (parse.run stream).Resumes (strict.run stream)) :
    parse.Judged before after language stream := by
  cases judged with
  | struck strikes => exact .struck ((resumes stream).strikes strikes)
  | reads word result next more split member reads =>
    exact .reads word result next more split member fun others => (reads others).resumed resumes
  | rejects word offender more split viable rejects =>
    exact .rejects word offender more split viable fun others => (rejects others).resumed resumes

theorem iterate_again {round : σ → Parse (Round σ α)} {next : Token} {more : List Token} (word : List Token)
    (split : stream.left before = word ++ next :: more)
    (reads : ∀ others, (round state).Reads before before (word ++ next :: others) (.again following finish)
      (next :: others)) (prolongs : (Round.again following finish).Prolongs language word next)
    (second : ∀ rest : TokenStream, rest.count < stream.count →
      (Parse.iterate round following).Judged before before language rest) :
    (Parse.iterate round state).Judged before before language stream := by
  obtain ⟨progress, prolongs⟩ := prolongs
  have longer : 0 < word.length := List.length_pos_iff.mpr progress
  have shorter (others : List Token) : (next :: others).length < (word ++ next :: others).length := by
    rw [List.length_append]
    omega
  obtain ⟨rest, ran, left⟩ := reads more stream split
  have fewer : rest.count < stream.count := TokenStream.count_lt_of_left (left ▸ split ▸ shorter more)
  cases second rest fewer with
  | struck strikes =>
    refine .struck ?_
    rw [run_iterate, ran, Step.andThen_done, Step.since_nil]
    simp only [fewer, ↓reduceIte]
    exact strikes.map finish
  | reads later result last tail split' member reads' =>
    rw [left] at split'
    refine .reads (word ++ later) (finish result) last tail (by rw [split, split', List.append_assoc])
      (prolongs _ _ _ member) ?_
    intro others
    obtain ⟨shared, same⟩ := shared split' others
    have second := reads' others
    rw [List.append_assoc, same]
    exact .iterate_again (reads shared) (shorter shared) (same ▸ second)
  | rejects later offender tail split' viable rejects =>
    rw [left] at split'
    refine .rejects (word ++ later) offender tail (by rw [split, split', List.append_assoc])
      (viable.mono fun result later next member => ?_) fun others => ?_
    · rw [List.append_assoc]
      exact .of_member _ _ (prolongs _ _ _ member)
    · obtain ⟨shared, same⟩ := shared split' others
      have second := rejects others
      rw [List.append_assoc, same]
      exact .iterate_again (reads shared) (shorter shared) (same ▸ second)

theorem iterate {round : σ → Parse (Round σ α)} (viable : Viable language [])
    (each : ∀ state stream, (round state).Judged before before (Round.Prolongs language) stream) (state : σ) :
    (iterate round state).Judged before before language stream := by
  induction stream using TokenStream.induct generalizing state with
  | fewer stream ih =>
    cases each state stream with
    | struck strikes =>
      refine .struck ?_
      rw [run_iterate]
      exact strikes.andThen _
    | rejects word offender more split viable' rejects =>
      refine .rejects word offender more split (viable'.mono fun decision later next member => ?_)
        fun others => (rejects others).iterate
      cases decision with
      | stop result => exact .of_member _ _ member
      | again _ finish =>
        obtain ⟨completion, result, last, genuine, complete⟩ := viable
        exact ⟨completion, finish result, last, genuine, member.2 _ _ _ complete⟩
    | reads word decision next more split member reads =>
      cases decision with
      | stop result => exact .reads word result next more split member fun others => (reads others).iterate_stop
      | again following finish =>
        exact .iterate_again word split reads member fun rest fewer => ih rest fewer following

theorem collect {round : Parse (Gain α)} {language : List Token → Token → Prop}
    (viable : ∃ completion next, (∀ token ∈ completion, token.Genuine) ∧ language completion next)
    (each : ∀ stream, round.Judged before before (Gain.Prolongs language) stream) :
    (collect round).Judged before before (fun _ => language) stream := by
  obtain ⟨completion, next, genuine, member⟩ := viable
  refine .iterate ⟨completion, [], next, genuine, member⟩ (fun _ stream => ?_) ()
  have stop (word : List Token) (next : Token) (member : language word next) :
      (Round.stop [] : Round Unit (List α)).Prolongs (fun _ => language) word next := member
  have again (value : α) (word : List Token) (next : Token)
      (member : (Gain.item value).Prolongs language word next) :
      (Round.again () (value :: ·)).Prolongs (fun _ => language) word next := ⟨member.1, fun _ => member.2⟩
  refine (each stream).bind (fun gain word next member => ?_) fun gain word rest member => ?_
  · cases gain with
    | stop => exact .of_member _ _ (stop word next member)
    | nothing => exact absurd member id
    | item value => exact .of_member _ _ (again value word next member)
  · cases gain with
    | stop => exact .pure _ ((List.append_nil word).symm ▸ stop word _ member)
    | nothing => exact absurd member id
    | item value => exact .pure _ ((List.append_nil word).symm ▸ again value word _ member)

end Judged

end Mana.Parse
