import Dialogue.Console
import Dialogue.Session.Turn
import Dialogue.Transcript

/-! # Conversations

A session held at a console. The opening line is written, then each line read is answered, until
the session ends. The end of the input counts as a blank line, so it ends the session. -/

namespace Dialogue

structure Conversation where
  session : Session
  console : Console
  transcript : Transcript := {}

/-- Where an exchange leaves a conversation. -/
inductive Standing where
  | goingOn
  | over
  /-- The next line could not be read. -/
  | broken (fault : ReadFault)
  deriving DecidableEq

namespace Conversation

/-- Writes a line and records it. -/
def write (c : Conversation) (line : String) : Conversation :=
  { c with
    console := c.console.writeLine line
    transcript := c.transcript.record .output line }

/-- Records a line that has been read and writes the replies to it. -/
def answer (c : Conversation) (line : String) : Conversation :=
  let (replies, session) := c.session.respond line
  let heard := { c with session := session, transcript := c.transcript.record .input line }
  replies.foldl write heard

/-- A conversation of which only the opening line has been written. -/
def begin (session : Session) (console : Console) : Conversation :=
  write { session := session, console := console } session.opening

/-- Reads a line and answers it. -/
def exchange (c : Conversation) : Standing × Conversation :=
  if c.session.finished then (.over, c)
  else
    match c.console.readLine with
    | (.error fault, console) => (.broken fault, { c with console := console })
    | (.ok none, console) => (.over, answer { c with console := console } "")
    | (.ok (some line), console) => (.goingOn, answer { c with console := console } line)

theorem size_foldl_write (c : Conversation) (lines : List String) :
    (lines.foldl write c).console.size = c.console.size := by
  induction lines generalizing c with
  | nil => rfl
  | cons line lines ih => simp [ih, write]

theorem size_answer (c : Conversation) (line : String) :
    (c.answer line).console.size = c.console.size := by
  simp [answer, size_foldl_write]

theorem size_exchange_lt {c next : Conversation} (h : c.exchange = (.goingOn, next)) :
    next.console.size < c.console.size := by
  unfold exchange at h
  split at h
  · simp at h
  · split at h
    · simp at h
    · simp at h
    · rename_i line console hread
      simp only [Prod.mk.injEq, true_and] at h
      rw [← h, size_answer]
      exact Console.size_readLine_lt hread

/-- Exchanges lines to the end: the fault that broke the conversation off, if one did, and the
conversation as it then stands. -/
def finish (c : Conversation) : Option ReadFault × Conversation :=
  match _h : c.exchange with
  | (.goingOn, next) => next.finish
  | (.over, last) => (none, last)
  | (.broken fault, last) => (some fault, last)
termination_by c.console.size
decreasing_by exact size_exchange_lt _h

/-- Holds a whole conversation. -/
def hold (session : Session) (console : Console) : Option ReadFault × Conversation :=
  (begin session console).finish

end Conversation

end Dialogue
