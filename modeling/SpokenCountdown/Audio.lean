import SpokenCountdown.Binary
import SpokenCountdown.Preferences
import SpokenCountdown.Text.Numeral

/-!
# Audio

What a speaker is started with for an utterance, and the tones of the chime.
With audio disabled there is neither.
-/

namespace SpokenCountdown

/-- A sine tone: hertz, milliseconds and amplitude. -/
structure Tone where
  frequency : Binary
  length : Nat
  amplitude : Binary
  deriving DecidableEq, Repr

structure Chime where
  volume : Binary
  tones : List Tone
  deriving DecidableEq, Repr

namespace Chime

/-- The melody, in tenths of a hertz. -/
def melody : List Nat :=
  [4400, 2616, 8306, 4400, 2616, 8306, 3920, 4400, 2616, 8306, 4400, 2616, 8306, 3920, 4400]

def tone (tenths : Nat) : Tone where
  frequency := .ofRatio .single false tenths 10
  length := 425
  amplitude := .ofRatio .single false 1 4

def length (chime : Chime) : Nat :=
  chime.tones.foldl (fun total tone => total + tone.length) 0

end Chime

namespace AudioSettings

/-- Words per minute at a rate: rounded to the nearest integer, a half upwards,
from 1 to the greatest number of 32 bits. -/
def speed (audio : AudioSettings) (rate : Binary) : Nat :=
  match (Binary.ofNat .single audio.wordsPerMinute).mul .single rate with
  | .infinite false => Text.word32 - 1
  | .finite false significand exponent =>
    max 1 (min (Binary.finite false significand exponent).roundedMagnitude (Text.word32 - 1))
  | _ => 1

/-- The volume on the speaker's scale, where 200 is the loudest. -/
def amplitude (audio : AudioSettings) : Nat :=
  min audio.volume 100 * 2

def arguments (audio : AudioSettings) (text : String) (rate : Binary) : List String :=
  ["-s", String.ofList (Text.numeral (audio.speed rate)),
    "-a", String.ofList (Text.numeral audio.amplitude)] ++
    (match audio.voice with
    | some voice => ["-v", voice]
    | none => []) ++ [text]

/-- Arguments that the speaker is started with, none if it cannot be started:
no argument may hold the character zero. -/
def speak? (audio : AudioSettings) (text : String) (rate : Binary) : Option (List String) :=
  let arguments := audio.arguments text rate
  if !audio.enabled || arguments.any (·.toList.contains '\x00') then none
  else some arguments

def chime? (audio : AudioSettings) : Option Chime :=
  if audio.enabled then
    some ⟨.ofRatio .single false (min audio.volume 100) 100, Chime.melody.map Chime.tone⟩
  else none

def chimeLength (audio : AudioSettings) : Nat :=
  audio.chime?.elim 0 Chime.length

end AudioSettings

end SpokenCountdown
