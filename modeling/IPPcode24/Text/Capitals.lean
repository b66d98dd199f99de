import IPPcode24.Text
import IPPcode24.Text.CapitalTable

/-!
# Capitals

The upper-case form of a text, by the full mapping of Unicode: a sharp s becomes
two letters, and a character without a capital stays.
-/

namespace IPPcode24.Text

def CapitalRun.holds (run : CapitalRun) (n : Nat) : Bool :=
  run.first ≤ n && n ≤ run.last && (n - run.first) % run.step == 0

/-- The capital form of one character. -/
def capital (c : Char) : Text :=
  if c.toNat < 128 then [c.toUpper]
  else match capitalExpansions.lookup c.toNat with
    | some codes => codes.map Char.ofNat
    | none =>
      match capitalRuns.find? (·.holds c.toNat) with
      | some run => [Char.ofNat (c.toNat + run.shift).toNat]
      | none => [c]

def capitals (text : Text) : Text := text.flatMap capital

/-- The capital of an ASCII character is a single ASCII character. -/
theorem capital_of_ascii {c : Char} (ascii : c.toNat < 128) : capital c = [c.toUpper] :=
  if_pos ascii

example : capitals "Straße".toList = "STRASSE".toList := by decide +kernel

end IPPcode24.Text
