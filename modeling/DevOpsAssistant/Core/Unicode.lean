import DevOpsAssistant.Core.Config
import DevOpsAssistant.Text.Strings

/-!
# The classes of characters

* `Unicode.Lawful`: what the classes of regular expressions are.
* `Unicode.ascii`: classes without digits and letters outside ASCII, which are lawful; `plainEnv`.
-/

namespace DevOps

/-- The classes of characters: `\s` is white space; of the ASCII characters, `\d` is a digit, and `\w` a
letter, a digit or an underscore; and no white space is in `\w`. -/
structure Unicode.Lawful (u : Unicode) : Prop where
  isSpace : ∀ c : Char, u.isSpace c = Text.isSpace c
  isDecimal : ∀ c : Char, c.toNat < 128 → u.isDecimal c = c.isDigit
  isWord : ∀ c : Char, c.toNat < 128 → u.isWord c = (c.isAlphanum || c == '_')
  isWord_space : ∀ c : Char, Text.isSpace c = true → u.isWord c = false

/-- The classes without digits and letters outside ASCII. -/
def Unicode.ascii : Unicode := ⟨Text.isSpace, Char.isDigit, fun c => c.isAlphanum || c == '_'⟩

/-- White space is neither a letter nor a digit. -/
theorem not_alphanum_of_isSpace {c : Char} (h : Text.isSpace c = true) :
    (c.isAlphanum || c == '_') = false := by
  unfold Text.isSpace at h
  simp only [Bool.or_eq_true, Bool.and_eq_true, decide_eq_true_eq] at h
  rw [Bool.eq_false_iff]
  intro hword
  unfold Char.isAlphanum Char.isAlpha Char.isUpper Char.isLower Char.isDigit at hword
  simp only [Bool.or_eq_true, Bool.and_eq_true, decide_eq_true_eq, beq_iff_eq,
    UInt32.le_iff_toNat_le, ge_iff_le] at hword
  rcases hword with hword | rfl
  · have hval : c.val.toNat = c.toNat := rfl
    have hupper : 'A'.val.toNat = 65 ∧ 'Z'.val.toNat = 90 := ⟨rfl, rfl⟩
    have hlower : 'a'.val.toNat = 97 ∧ 'z'.val.toNat = 122 := ⟨rfl, rfl⟩
    have hdigit : '0'.val.toNat = 48 ∧ '9'.val.toNat = 57 := ⟨rfl, rfl⟩
    omega
  · revert h
    decide

theorem Unicode.lawful_ascii : Unicode.ascii.Lawful where
  isSpace _ := rfl
  isDecimal _ _ := rfl
  isWord _ _ := rfl
  isWord_space _ h := not_alphanum_of_isSpace h

/-- An environment whose classes are those of ASCII. -/
def plainEnv : Env := { Env.trial with unicode := .ascii }

end DevOps
