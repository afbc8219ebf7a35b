import TrigPainting.Generator.Growth
import TrigPainting.Palette.Basic

/-!
# Random palettes

The three expressions of a palette are grown one after the other from one
source, in the order of the channels.

## Main definitions

- `Palette.draw` — a palette by settings that are taken to be valid
- `Palette.random` — a palette by given settings
-/

namespace TrigPainting.Palette

variable {α σ : Type}

/-- A palette by settings that are taken to be valid. -/
def draw (odds : Odds α) (source : Source α σ) (settings : Generator.Settings α) (s : σ) :
    Palette × σ :=
  let (red, s) := Generator.draw odds source settings s
  let (green, s) := Generator.draw odds source settings s
  let (blue, s) := Generator.draw odds source settings s
  (⟨red, green, blue⟩, s)

/-- A palette by given settings. A probability that is not valid is given back,
and then nothing has been drawn. -/
def random (odds : Odds α) (source : Source α σ) (settings : Generator.Settings α) (s : σ) :
    Except α Palette × σ :=
  if settings.valid odds then
    let (p, s) := draw odds source settings s
    (.ok p, s)
  else (.error settings.probability, s)

end TrigPainting.Palette
