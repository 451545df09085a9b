/-!
# Element types

The types that an element of a scene can have, by name. All of them can be created and read from a
script, but for the group, which is reserved. An element itself carries the name, because a scene
document may hold any; `ElementType.ofName?` tells whether it is one of these
(`ofName?_name`).
-/

namespace SceneScript

/-- The type of an element. -/
inductive ElementType where
  | text
  | rect
  | rectOutline
  | roundRect
  | roundedRectOutline
  | circle
  | circleOutline
  | image
  | imageBox
  | button
  | imageButton
  | blankButton
  | slider
  | mute
  | colorFilter
  | color
  | disableInput
  | buttonHoverColor
  | setCursorState
  | ignoreNavigation
  | font
  | align
  | textOutline
  | wordWrap
  | textAlignment
  | drawLater
  | group
  deriving DecidableEq, Repr

namespace ElementType

/-- The name of a type. -/
def name : ElementType → String
  | .text => "text"
  | .rect => "rect"
  | .rectOutline => "rectOutline"
  | .roundRect => "roundrect"
  | .roundedRectOutline => "roundedRectOutline"
  | .circle => "circle"
  | .circleOutline => "circleOutline"
  | .image => "image"
  | .imageBox => "imageBox"
  | .button => "button"
  | .imageButton => "imageButton"
  | .blankButton => "blankButton"
  | .slider => "slider"
  | .mute => "mute"
  | .colorFilter => "colorFilter"
  | .color => "color"
  | .disableInput => "disableInput"
  | .buttonHoverColor => "buttonHoverColor"
  | .setCursorState => "setCursorState"
  | .ignoreNavigation => "ignoreNavigation"
  | .font => "font"
  | .align => "align"
  | .textOutline => "textOutline"
  | .wordWrap => "wordWrap"
  | .textAlignment => "textAlignment"
  | .drawLater => "drawLater"
  | .group => "group"

/-- Every type, in their common order. -/
def all : List ElementType :=
  [.text, .rect, .rectOutline, .roundRect, .roundedRectOutline,
    .circle, .circleOutline, .image, .imageBox, .button,
    .imageButton, .blankButton, .slider, .mute, .colorFilter,
    .color, .disableInput, .buttonHoverColor, .setCursorState, .ignoreNavigation,
    .font, .align, .textOutline, .wordWrap, .textAlignment,
    .drawLater, .group]

/-- The type of a name. -/
def ofName? (name : String) : Option ElementType := all.find? (fun t => t.name = name)

/-- The types that elements can be created with: all but the group. -/
def isCreatable (t : ElementType) : Bool := t ≠ .group

/-- The types that call a handler of the script. -/
def isInteractive : ElementType → Bool
  | .button | .imageButton | .blankButton | .slider => true
  | _ => false

/-- The types that set a state of the drawing and have no size of their own. -/
def isDirective : ElementType → Bool
  | .mute | .colorFilter | .color | .disableInput | .buttonHoverColor | .setCursorState
  | .ignoreNavigation | .font | .align | .textOutline | .wordWrap | .textAlignment | .drawLater =>
    true
  | _ => false

theorem ofName?_name (t : ElementType) : ofName? t.name = some t := by
  cases t <;> decide

theorem name_of_ofName? {name : String} {t : ElementType} (h : ofName? name = some t) :
    t.name = name := by
  have := List.find?_some h
  simpa using this

end ElementType

end SceneScript
