import ADTimePix3.Mask.PelIndex

/-!
# `rotateLayout`: the turn the driver asks the detector server for

`ADTimePix::rotateLayout` (`serval_http.cpp`) builds the URL of a GET request from the detector
orientation. The parameters of its query and their meaning on the pixels of a square image are defined
here.
-/

namespace ADTimePix3.Mask

/-- The query parameters that `rotateLayout` appends to `/detector/layout/rotate?reset=true`. An orientation outside
`0..7` is set to `0` first. -/
def rotateLayoutParams (apiVer : String) (detOrientation : ℤ) : List (String × String) :=
  let intNum := if detOrientation < 0 ∨ detOrientation ≥ 8 then 0 else detOrientation
  if intNum = 0 then []
  else if intNum = 1 then [("direction", "right")]
  else if intNum = 2 then
    if apiVer.toList.head? = some '3' then [("direction", "180")] else [("direction", "half")]
  else if intNum = 3 then [("direction", "left")]
  else if intNum = 4 then [("flip", "horizontal")]
  else if intNum = 5 then [("direction", "right"), ("flip", "horizontal")]
  else if intNum = 6 then [("flip", "vertical")]
  else if intNum = 7 then [("direction", "right"), ("flip", "vertical")]
  else []

/-- What the server does with one parameter, on the pixels of an image of side `W`. Parameters it does
not know change nothing. -/
def applyParam (W : ℤ) (q : String × String) (p : ℤ × ℤ) : ℤ × ℤ :=
  if q = ("direction", "right") then (W - 1 - p.2, p.1)
  else if q = ("direction", "half") ∨ q = ("direction", "180") then (W - 1 - p.1, W - 1 - p.2)
  else if q = ("direction", "left") then (p.2, W - 1 - p.1)
  else if q = ("flip", "horizontal") then (W - 1 - p.1, p.2)
  else if q = ("flip", "vertical") then (p.1, W - 1 - p.2)
  else p

/-- Where the requested turn moves a pixel: the parameters are applied in the order they are sent. -/
def servalRotation (apiVer : String) (o W : ℤ) (p : ℤ × ℤ) : ℤ × ℤ :=
  (rotateLayoutParams apiVer o).foldl (fun p q => applyParam W q p) p

end ADTimePix3.Mask
