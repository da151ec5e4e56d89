import StaticSite.CommandLine.Console
import StaticSite.Proofs.Disk.Interrupted
import StaticSite.Proofs.Token.Positions

/-!
# What arrives of what is printed

Texts that are printed one after the other arrive as if they were printed together.  The exit code
tells of those that do not.
-/

namespace StaticSite.CommandLine

variable {room : Disk.Room} {said text heading message : Text} {errors output : Stream}

/-- Whether all of a text arrives that is printed to a stream with some room. -/
def Arrives (room : Disk.Room) (text : Text) : Prop :=
  ∀ count fault, room = some (count, fault) → (Utf8.encode text).length ≤ count

theorem arrives_none (text : Text) : Arrives none text := nofun

theorem Arrives.front (arrives : Arrives room (said ++ text)) : Arrives room said := by
  intro count fault isRoom
  have fits := arrives count fault isRoom
  rw [Utf8.encode_append, List.length_append] at fits
  omega

/-- A stream on which a text has arrived. -/
def Stream.holding (room : Disk.Room) (said : Text) : Stream := ⟨room, Utf8.encode said⟩

theorem print_of_arrives (arrives : Arrives room (said ++ text)) :
    (Stream.holding room said).print text = (.ok (), .holding room (said ++ text)) := by
  rw [Stream.print, Stream.holding, ← Utf8.encode_append]
  cases taken : Disk.Room.take (Utf8.encode (said ++ text)) room with
  | mk result arrived =>
  cases result with
  | ok _ =>
    obtain rfl := Disk.Room.take_eq_ok taken
    rfl
  | error fault =>
    obtain ⟨count, isRoom, short, _⟩ := Disk.Room.take_eq_error taken
    exact absurd (arrives count fault isRoom) (Nat.not_le.2 short)

theorem print_of_lost (lost : ¬ Arrives room (said ++ text)) :
    ∃ fault stream, (Stream.holding room said).print text = (.error fault, stream) := by
  rw [Stream.print, Stream.holding, ← Utf8.encode_append]
  cases taken : Disk.Room.take (Utf8.encode (said ++ text)) room with
  | mk result arrived =>
  cases result with
  | error fault => exact ⟨fault, _, rfl⟩
  | ok _ =>
    refine absurd (fun count fault isRoom => ?_) lost
    subst isRoom
    simp only [Disk.Room.take] at taken
    split at taken
    · cases taken
    · omega

namespace Console

theorem say_of_arrives (arrives : Arrives room (said ++ text)) :
    say ⟨.holding room said, errors⟩ text = .ok ⟨.holding room (said ++ text), errors⟩ := by
  rw [say, print_of_arrives arrives]

theorem say_of_lost (lost : ¬ Arrives room (said ++ text)) :
    ∃ outcome, say ⟨.holding room said, errors⟩ text = .error outcome ∧ outcome.code = 101 := by
  obtain ⟨fault, stream, printed⟩ := print_of_lost lost
  rw [say, printed]
  exact ⟨_, rfl, rfl⟩

theorem fail_of_arrives (arrives : Arrives room (failureText heading message)) :
    fail ⟨output, .holding room []⟩ heading message
      = ⟨1, output.arrived, Utf8.encode (failureText heading message)⟩ := by
  have arrives' : Arrives room ([] ++ failureText heading message) := arrives
  rw [fail, print_of_arrives arrives']
  rfl

theorem fail_of_lost (lost : ¬ Arrives room (failureText heading message)) :
    (fail ⟨output, .holding room []⟩ heading message).code = 101 := by
  have lost' : ¬ Arrives room ([] ++ failureText heading message) := lost
  obtain ⟨fault, stream, printed⟩ := print_of_lost lost'
  rw [fail, printed]
  rfl

theorem code_fail (console : Console) (heading message : Text) :
    (console.fail heading message).code = 1 ∨ (console.fail heading message).code = 101 := by
  rw [fail]
  split
  · exact .inl rfl
  · exact .inr rfl

theorem tell_of_arrives (arrives : Arrives room (said ++ text)) :
    tell ⟨.holding room said, errors⟩ text = .ok ⟨.holding room (said ++ text), errors⟩ := by
  rw [tell, print_of_arrives arrives]

theorem tell_of_lost (lost : ¬ Arrives room (said ++ text)) :
    ∃ outcome, tell ⟨.holding room said, errors⟩ text = .error outcome ∧
      (outcome.code = 1 ∨ outcome.code = 101) := by
  obtain ⟨fault, stream, printed⟩ := print_of_lost lost
  rw [tell, printed]
  exact ⟨_, rfl, code_fail ..⟩

end Console

end StaticSite.CommandLine
