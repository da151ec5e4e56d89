import StaticSite.Disk.Change

/-!
# Printing

What a command line prints arrives as long as the stream takes it: a pipe may have been closed, and
a disk be full.  Some texts have to arrive, and the tool breaks off without them; that others do not
is an error like any other.
-/

namespace StaticSite.CommandLine

/-- What a command line leaves behind, besides the host.  What the tool logs is no part of it, nor
is what is said of a tool that has broken off. -/
structure Outcome where
  code : Nat
  output : List UInt8
  errors : List UInt8
  deriving DecidableEq, Repr

/-- A line of output. -/
def line (text : Text) : Text := text ++ ['\n']

/-- A command that worked. -/
def Outcome.success (output : Text) : Outcome := ⟨0, Utf8.encode output, []⟩

/-- A stream that is printed to. -/
structure Stream where
  room : Disk.Room := none
  /-- What has arrived so far. -/
  arrived : List UInt8 := []

/-- Prints a text.  What there is no room for is lost. -/
def Stream.print (stream : Stream) (text : Text) : Except Fault Unit × Stream :=
  let (result, arrived) := Disk.Room.take (stream.arrived ++ Utf8.encode text) stream.room
  (result, { stream with arrived })

/-- The two streams of a command line. -/
structure Console where
  output : Stream := {}
  errors : Stream := {}

namespace Console

/-- Ends with an exit code. -/
def exit (console : Console) (code : Nat) : Outcome :=
  ⟨code, console.output.arrived, console.errors.arrived⟩

/-- Breaks off. -/
def breakOff (console : Console) : Outcome := console.exit 101

/-- Prints a text that has to arrive. -/
def say (console : Console) (text : Text) : Except Outcome Console :=
  match console.output.print text with
  | (.ok (), output) => .ok { console with output }
  | (.error _, output) => .error { console with output }.breakOff

/-- The lines that a failure ends with. -/
def failureText (heading message : Text) : Text := heading ++ line ("Error: ".toList ++ message)

/-- Prints a heading and the message of an error, which have to arrive as well, and ends. -/
def fail (console : Console) (heading message : Text) : Outcome :=
  match console.errors.print (failureText heading message) with
  | (.ok (), errors) => { console with errors }.exit 1
  | (.error _, errors) => { console with errors }.breakOff

/-- Prints a text.  That it does not arrive is an error. -/
def tell (console : Console) (text : Text) : Except Outcome Console :=
  match console.output.print text with
  | (.ok (), output) => .ok { console with output }
  | (.error fault, output) => .error ({ console with output }.fail [] fault.message)

/-- Prints a text that was asked for, as much of it as arrives, and ends. -/
def offer (console : Console) (text : Text) : Outcome :=
  { console with output := (console.output.print text).2 }.exit 0

/-- Tells how the tool is used, if that arrives, and ends. -/
def refuse (console : Console) (text : Text) : Outcome :=
  { console with errors := (console.errors.print text).2 }.exit 2

end Console

/-- Ends well if everything has been printed. -/
def Outcome.finish : Except Outcome Console → Outcome
  | .ok console => console.exit 0
  | .error outcome => outcome

end StaticSite.CommandLine
