/-!
# Live forms: styles

Main definitions:

* `Style`, and `Style.patch`, a style laid over another one.
* `Span`: a piece of text in one style.
* `Cell`: one cell of the screen.
-/

namespace LiveForms

/-- The colours in use. -/
inductive Color where
  | cyan
  | yellow
  | blue
  | white
  | magenta
  | red
  | green
  | gray
  | darkGray
deriving DecidableEq, Repr

/-- What a style sets; a colour that it does not set shows through from lower. -/
structure Style where
  foreground : Option Color := none
  background : Option Color := none
  bold : Bool := false
  reversed : Bool := false
deriving DecidableEq, Repr, Inhabited

namespace Style

/-- The style that sets nothing. -/
def plain : Style :=
  {}

/-- The style that sets the foreground. -/
def ink (color : Color) : Style where
  foreground := some color

/-- A style with `upper` laid over it. -/
def patch (lower upper : Style) : Style where
  foreground := upper.foreground <|> lower.foreground
  background := upper.background <|> lower.background
  bold := lower.bold || upper.bold
  reversed := lower.reversed || upper.reversed

end Style

/-- A piece of text in one style. -/
structure Span where
  text : String
  style : Style := {}
deriving DecidableEq, Repr, Inhabited

/-- One cell of the screen: the piece of text that starts in it, and its style. -/
structure Cell where
  symbol : String := " "
  /-- How many cells the piece of text takes. -/
  width : Nat := 1
  style : Style := {}
deriving DecidableEq, Repr, Inhabited

end LiveForms
