/-!
# Live forms: the help text
-/

namespace LiveForms
namespace Screen

/-- The lines of the help text. -/
def helpText : List String :=
  ["TFORMS - LIVE FORMULA FORMS",
   "",
   "=== HOW IT WORKS ===",
   "• Every change to an input recomputes every formula on the page",
   "• A formula either evaluates an expression over input ids",
   "  (e.g. weight / (height * height)) or averages GPA rows",
   "• Empty inputs count as 0",
   "• Inputs must be plain decimals: 12, -3, 0.5, -.25",
   "",
   "=== EXPRESSIONS ===",
   "+ - * /         Arithmetic, usual precedence",
   "( )             Grouping",
   "-x              Negation",
   "name            Value of the input whose id is \"name\"",
   "",
   "=== RESULTS ===",
   "Invalid Formula                  An input is not a number, the",
   "                                 expression is malformed, or the",
   "                                 result is not finite (e.g. x / 0)",
   "Invalid Formula (... positive)   A GPA grade/credit or a BMI",
   "                                 weight/height is negative",
   "",
   "=== GPA ===",
   "GPA = Σ(grade × credit) / Σ(credit), or 0 with no credits",
   "a / Ctrl+N      Add a course row",
   "d / Ctrl+D      Remove the row holding the focus",
   "[ - ]           Press a row's button to remove it",
   "[ + ]           Press the add button to add a row",
   "",
   "=== NAVIGATION ===",
   "Tab / ↓ / j     Next field",
   "Shift+Tab / ↑ / k Previous field",
   "Enter / Space   Edit input or press button",
   "0-9 . -         Start editing the focused input",
   "Backspace       Clear the focused input",
   "y               Copy focused value or result",
   "F1 or ?         Show this help",
   "q               Quit",
   "",
   "=== EDITING ===",
   "←/→ Home/End    Move the cursor",
   "Backspace/Del   Delete characters",
   "Enter           Keep the value",
   "Tab / Shift+Tab Keep the value and move on",
   "Esc             Restore the value from before editing"]

end Screen
end LiveForms
