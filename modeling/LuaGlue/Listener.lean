import LuaGlue.Outcome
import LuaGlue.Recognizer
import LuaGlue.Token.Lexer

namespace LuaGlue

/-- A listener answers to an event with its next state, or with an error if it refuses it. -/
def Listener (σ : Type) : Type :=
  σ → Event → Outcome σ

/-- A recognizer together with the state of the listener it tells its events. -/
structure Hearing (σ : Type) where
  recognizer : Recognizer := {}
  listener : σ

/-- What reading a text to its end records, apart from its tokens. -/
def Token.Lexed.records (lexed : Token.Lexed) : List Record :=
  if lexed.unclosed then [.unclosedComment] else []

namespace Hearing

variable {σ : Type}

/-- Reads one token. A rejected token changes nothing; a refused event leaves what the
recognizer keeps after a refusal, and the state the listener had got to. -/
def feed (hear : Listener σ) (h : Hearing σ) (token : Token) : Outcome (Hearing σ) :=
  let fed := Record.fed h.recognizer.place token
  match h.recognizer.step token with
  | .next after => ⟨⟨after, h.listener⟩, [fed], none⟩
  | .tell event accepted refused =>
    let heard := hear h.listener event
    let after := if heard.error.isSome then refused else accepted
    ⟨⟨after, heard.state⟩, fed :: heard.records, heard.error⟩
  | .reject error => ⟨h, [fed], some error⟩

section Feed

variable {hear : Listener σ} {h : Hearing σ} {token : Token}

theorem feed_of_next {after : Recognizer} (hstep : h.recognizer.step token = .next after) :
    h.feed hear token = ⟨⟨after, h.listener⟩, [.fed h.recognizer.place token], none⟩ := by
  simp only [feed, hstep]

theorem feed_of_tell {event : Event} {accepted refused : Recognizer}
    (hstep : h.recognizer.step token = .tell event accepted refused) :
    h.feed hear token =
      ⟨⟨if (hear h.listener event).error.isSome then refused else accepted,
          (hear h.listener event).state⟩,
        .fed h.recognizer.place token :: (hear h.listener event).records,
        (hear h.listener event).error⟩ := by
  simp only [feed, hstep]

theorem feed_of_reject {error : Error} (hstep : h.recognizer.step token = .reject error) :
    h.feed hear token = ⟨h, [.fed h.recognizer.place token], some error⟩ := by
  simp only [feed, hstep]

end Feed

def feedAll (hear : Listener σ) (h : Hearing σ) : List Token → Outcome (Hearing σ)
  | [] => ⟨h, [], none⟩
  | token :: rest => (h.feed hear token).andThen fun h => h.feedAll hear rest

/-- Reads the tokens of a text. An unclosed comment is noticed behind the last of them, so only
if none of them fails. -/
def feedText (hear : Listener σ) (h : Hearing σ) (text : String) : Outcome (Hearing σ) :=
  let lexed := Token.lex text
  (h.feedAll hear lexed.tokens).andThen fun h =>
    ⟨h, lexed.records, none⟩

def finish (h : Hearing σ) : Outcome (Hearing σ) :=
  ⟨h, [], h.recognizer.finish?⟩

end Hearing

namespace Listener

variable {σ : Type}

/-- Reads a whole description from its start to its end, or to the first error. -/
def run (hear : Listener σ) (state : σ) (source : String) : Outcome (Hearing σ) :=
  (Hearing.feedText hear ⟨{}, state⟩ source).andThen Hearing.finish

/-- Hears everything and keeps nothing. -/
def silent : Listener Unit :=
  fun _ _ => ⟨(), [], none⟩

/-- Keeps all events it hears, and refuses those whose number is among `refusals`. -/
def recorder (refusals : List Nat) : Listener (List Event) :=
  fun heard event =>
    ⟨heard ++ [event], [], if refusals.contains heard.length then some .refused else none⟩

end Listener

end LuaGlue
