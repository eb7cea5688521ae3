/-!
# Letters and their case

Three comparisons of letters are in use. Identifiers and file extensions compare by ASCII case
alone. The words of a version banner compare by simple case folding, which adds two letters to the
ASCII ones: the long s folds to `s` and the Kelvin sign to `k`. Media names are put into lower
case first and then looked up in tables of ASCII words, so only a character whose lower case is an
ASCII letter matters; outside ASCII that is the Kelvin sign.
-/

set_option autoImplicit false

namespace TranscodingEngines.Text

/-- The two texts differ at most in the case of ASCII letters. -/
def sameLetters (s t : String) : Bool := s.toList.map Char.toLower == t.toList.map Char.toLower

/-- The letter that a character folds to; characters outside the folding classes of the ASCII
letters stay themselves. -/
def foldLetter (c : Char) : Char :=
  if c = '\u017f' then 's' else if c = '\u212a' then 'k' else c.toLower

/-- The lower case of a character as far as it is an ASCII letter. -/
def lowerLetter (c : Char) : Char :=
  if c = '\u212a' then 'k' else c.toLower

/-- A text in lower case, for comparison with words in ASCII. -/
def lowerLetters (s : String) : String := s.map lowerLetter

@[simp]
theorem sameLetters_self (s : String) : sameLetters s s = true := by
  simp [sameLetters]

theorem sameLetters_comm (s t : String) : sameLetters s t = sameLetters t s := by
  simp only [sameLetters]
  exact Bool.beq_comm

end TranscodingEngines.Text
