/-!
Numbers of JavaScript as far as the roundings to integers tell them apart.
-/

inductive JsNumber
  | nan
  | negativeInfinity
  | infinity
  | finite (value : Rat)
  deriving DecidableEq
