import StepScript.Console.Channel
import StepScript.Console.Script
import StepScript.Machine.Basic

/-!
# Consoles

A program writes to and reads from a console, which follows a script or stands at the end of a channel.
-/

namespace StepScript

/-- A console. -/
inductive Console where
  | script (s : Script)
  | channel (c : Channel)

namespace Console

def write : Console → String → Console
  | script s, text => script (s.write text)
  | channel c, text => channel (c.emit (.write text))

def writeLine : Console → String → Severity → Console
  | script s, text, severity => script (s.writeLine text severity)
  | channel c, text, severity => channel (c.emit (.line text severity))

def clear : Console → Console
  | script s => script s.clear
  | channel c => channel (c.emit .clear)

/-- Reads a line; gives nothing if the read blocks, its prompt being out. -/
def request : Console → String → Console × Option Reply
  | script s, prompt =>
    let (s, reply) := s.request prompt
    (script s, some reply)
  | channel c, prompt =>
    let (c, reply) := c.read prompt
    (channel c, reply)

/-- What an event of a run does to the console; only output concerns it. -/
def see : Console → Event → Console
  | c, .write text => c.write text
  | c, .writeLine text => c.writeLine text .output
  | c, .clear => c.clear
  | c, _ => c

end Console

end StepScript
