import WebOfThings.Text.Hidden.Ranges

/-!
# Characters that do not show as themselves

Control and format characters, separators other than the space, private use and unassigned code points,
marks that attach to the character before them and fillers. A quoted text writes them as escapes. The table
is that of Unicode 17 and stands in a module of its own; here it is only looked up. Texts that people chose,
ids, names of users and media types, reach diagnostics this way.
-/

namespace WebOfThings.Text

/-- Whether a character is invisible on its own. -/
def isHidden (c : Char) : Bool :=
  hiddenRanges.any fun (low, high) => decide (low ≤ c.toNat) && decide (c.toNat ≤ high)

end WebOfThings.Text
