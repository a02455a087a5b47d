/-
**The bundled patterns.**

`Catalog.bundled` is the catalog that is used if none is given.
-/

import AnimationCode.Pattern.Catalog

namespace AnimationCode

namespace Catalog

/-- A number of tenths. -/
def tenths (n : Nat) : Value := .real (Binary64.ofDecimal false n (-1))

/-- A number of hundredths. -/
def hundredths (n : Nat) : Value := .real (Binary64.ofDecimal false n (-2))

/-- Smooth opacity transition from invisible to visible. -/
def fadeIn : Pattern where
  id := "fade-in"
  name := "Fade In"
  description := "Smooth opacity transition from invisible to visible"
  category := .entrance
  complexity := .basic
  frameworks := [.react, .js, .vue]
  tags := ["fade", "opacity", "entrance"]
  config := [("initial", .object [("opacity", .int 0)]),
    ("animate", .object [("opacity", .int 1)]),
    ("transition", .object [("duration", tenths 3)])]
  attributes := []
  usage := ⟨["initial", "animate", "transition"], [], []⟩

/-- Element slides up from below while fading in. -/
def slideUp : Pattern where
  id := "slide-up"
  name := "Slide Up"
  description := "Element slides up from below while fading in"
  category := .entrance
  complexity := .basic
  frameworks := [.react, .js, .vue]
  tags := ["slide", "translate", "entrance"]
  config := [("initial", .object [("opacity", .int 0), ("y", .int 20)]),
    ("animate", .object [("opacity", .int 1), ("y", .int 0)]),
    ("transition", .object [("duration", tenths 4), ("ease", .text "easeOut")])]
  attributes := []
  usage := ⟨["initial", "animate", "transition"], [], []⟩

/-- Element scales in with a bouncy spring animation. -/
def scaleBounce : Pattern where
  id := "scale-bounce"
  name := "Scale Bounce"
  description := "Element scales in with a bouncy spring animation"
  category := .entrance
  complexity := .intermediate
  frameworks := [.react, .js, .vue]
  tags := ["scale", "spring", "bounce"]
  config := [("initial", .object [("scale", .int 0), ("opacity", .int 0)]),
    ("animate", .object [("scale", .int 1), ("opacity", .int 1)]),
    ("transition", .object [("type", .text "spring"), ("stiffness", .int 260), ("damping", .int 20)])]
  attributes := []
  usage := ⟨["initial", "animate", "transition"], [], []⟩

/-- Smooth opacity transition from visible to invisible. -/
def fadeOut : Pattern where
  id := "fade-out"
  name := "Fade Out"
  description := "Smooth opacity transition from visible to invisible"
  category := .exit
  complexity := .basic
  frameworks := [.react, .js, .vue]
  tags := ["fade", "opacity", "exit"]
  config := [("exit", .object [("opacity", .int 0)]),
    ("transition", .object [("duration", tenths 2)])]
  attributes := []
  usage := ⟨["exit", "transition"], ["AnimatePresence"], []⟩

/-- Element slides down while fading out. -/
def slideDownExit : Pattern where
  id := "slide-down-exit"
  name := "Slide Down Exit"
  description := "Element slides down while fading out"
  category := .exit
  complexity := .basic
  frameworks := [.react, .js, .vue]
  tags := ["slide", "translate", "exit"]
  config := [("exit", .object [("opacity", .int 0), ("y", .int 20)]),
    ("transition", .object [("duration", tenths 3), ("ease", .text "easeIn")])]
  attributes := []
  usage := ⟨["exit", "transition"], ["AnimatePresence"], []⟩

/-- Scale element on hover with smooth transition. -/
def hoverScale : Pattern where
  id := "hover-scale"
  name := "Hover Scale"
  description := "Scale element on hover with smooth transition"
  category := .gesture
  complexity := .basic
  frameworks := [.react, .js, .vue]
  tags := ["hover", "scale", "interaction"]
  config := [("hover", .object [("scale", hundredths 105)]),
    ("tap", .object [("scale", hundredths 95)]),
    ("transition", .object [("type", .text "spring"), ("stiffness", .int 400), ("damping", .int 17)])]
  attributes := []
  usage := ⟨["whileHover", "whileTap", "transition"], [], []⟩

/-- Draggable element with elastic constraints. -/
def dragElastic : Pattern where
  id := "drag-elastic"
  name := "Elastic Drag"
  description := "Draggable element with elastic constraints"
  category := .gesture
  complexity := .advanced
  frameworks := [.react, .js, .vue]
  tags := ["drag", "elastic", "constraints"]
  config := [("drag", .object [("scale", hundredths 105)]),
    ("transition", .object [("type", .text "spring"), ("stiffness", .int 300), ("damping", .int 30)])]
  attributes := [("drag", .bool true),
    ("dragConstraints", .object [("left", .int (-100)), ("right", .int 100), ("top", .int (-100)),
      ("bottom", .int 100)]),
    ("dragElastic", tenths 2)]
  usage := ⟨["drag", "dragConstraints", "dragElastic", "transition"], [], []⟩

/-- Smooth layout transitions between different states. -/
def sharedLayout : Pattern where
  id := "shared-layout"
  name := "Shared Layout"
  description := "Smooth layout transitions between different states"
  category := .layout
  complexity := .advanced
  frameworks := [.react]
  tags := ["layout", "transition", "morph"]
  config := [("initial", .text "collapsed"),
    ("animate", .text "expanded"),
    ("variants", .object [("collapsed", .object [("width", .int 200), ("height", .int 100)]),
      ("expanded", .object [("width", .int 400), ("height", .int 300)])]),
    ("transition", .object [("layout", .object [("duration", tenths 3)])])]
  attributes := [("layout", .bool true)]
  usage := ⟨["layout", "layoutId", "variants", "transition"], [],
    ["Requires layoutId for shared layout animations"]⟩

/-- Element animates in when it enters the viewport. -/
def scrollReveal : Pattern where
  id := "scroll-reveal"
  name := "Scroll Reveal"
  description := "Element animates in when it enters the viewport"
  category := .scroll
  complexity := .intermediate
  frameworks := [.react, .js, .vue]
  tags := ["scroll", "viewport", "reveal"]
  config := [("initial", .object [("opacity", .int 0), ("y", .int 50)]),
    ("inView", .object [("opacity", .int 1), ("y", .int 0)]),
    ("transition", .object [("duration", tenths 6), ("ease", .text "easeOut")])]
  attributes := [("viewport", .object [("once", .bool true), ("margin", .text "-100px")])]
  usage := ⟨["initial", "whileInView", "viewport", "transition"], [], []⟩

/-- Element moves at different speed than scroll for depth effect. -/
def parallaxScroll : Pattern where
  id := "parallax-scroll"
  name := "Parallax Scroll"
  description := "Element moves at different speed than scroll for depth effect"
  category := .scroll
  complexity := .advanced
  frameworks := [.react, .js]
  tags := ["parallax", "scroll", "depth"]
  config := [("initial", .text "offscreen"),
    ("inView", .text "onscreen"),
    ("variants", .object [("offscreen", .object [("y", .int 100)]), ("onscreen", .object [("y",
      .int (-100)), ("transition", .object [("type", .text "spring"), ("bounce", tenths 4)])])])]
  attributes := []
  usage := ⟨["variants", "initial", "whileInView"], ["useScroll", "useTransform"],
    ["Requires scroll progress tracking"]⟩

/-- Children elements animate in sequence with delay. -/
def staggerChildren : Pattern where
  id := "stagger-children"
  name := "Stagger Children"
  description := "Children elements animate in sequence with delay"
  category := .stagger
  complexity := .intermediate
  frameworks := [.react, .js, .vue]
  tags := ["stagger", "children", "sequence"]
  config := [("initial", .text "hidden"),
    ("animate", .text "visible"),
    ("variants", .object [("hidden", .object [("opacity", .int 0)]), ("visible", .object [("opacity",
      .int 1), ("transition", .object [("delayChildren", tenths 1), ("staggerChildren", tenths 1)])])])]
  attributes := []
  usage := ⟨["variants", "initial", "animate"], [], ["Parent container needs staggerChildren",
    "children need individual variants"]⟩

/-- Button that morphs between different states. -/
def morphingButton : Pattern where
  id := "morphing-button"
  name := "Morphing Button"
  description := "Button that morphs between different states"
  category := .complex
  complexity := .advanced
  frameworks := [.react]
  tags := ["button", "morph", "state", "loading"]
  config := [("animate", .text "idle"),
    ("variants", .object [("idle", .object [("width", .int 120), ("borderRadius", .int 8),
      ("backgroundColor", .text "#3B82F6")]), ("loading", .object [("width", .int 40),
      ("borderRadius", .int 20), ("backgroundColor", .text "#10B981")]), ("success",
      .object [("width", .int 140), ("borderRadius", .int 8), ("backgroundColor", .text "#059669")])]),
    ("transition", .object [("type", .text "spring"), ("stiffness", .int 300), ("damping", .int 30)])]
  attributes := [("layout", .bool true)]
  usage := ⟨["variants", "animate", "transition", "layout"], [],
    ["Requires state management for different button states"]⟩

/-- A card that flips over in depth to show its back. -/
def cardFlip : Pattern where
  id := "card-flip"
  name := "Card Flip"
  description := "3D card flip animation with front and back sides"
  category := .complex
  complexity := .advanced
  frameworks := [.react, .js]
  tags := ["3d", "flip", "card", "perspective"]
  config := [("initial", .object [("transformPerspective", .int 1000)]),
    ("animate", .text "front"),
    ("variants", .object [("front", .object [("rotateY", .int 0)]), ("back", .object [("rotateY",
      .int 180)])]),
    ("transition", .object [("duration", tenths 6), ("ease", .text "easeInOut")])]
  attributes := []
  usage := ⟨["variants", "animate", "transition", "style"], [],
    ["Requires CSS perspective and backface-visibility settings"]⟩

/-- The bundled patterns. -/
def bundled : Catalog where
  patterns := [fadeIn, slideUp, scaleBounce, fadeOut, slideDownExit,
    hoverScale, dragElastic, sharedLayout, scrollReveal,
    parallaxScroll, staggerChildren, morphingButton, cardFlip]
  version := 1

end Catalog

end AnimationCode
