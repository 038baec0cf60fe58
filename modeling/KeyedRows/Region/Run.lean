import KeyedRows.Region.Contents

namespace KeyedRows.Region

/-- The region after a step. A step that is refused changes nothing. -/
def after (region : Region) (step : Step) : Region :=
  match step.apply region with
  | .ok region => region
  | .error _ => region

/-- The region after steps, one behind the other. -/
def run (region : Region) (steps : List Step) : Region :=
  steps.foldl after region

/-- Whether a step is there to write something, and not only to make room. -/
def Step.writes : Step → Bool
  | reserve _ => false
  | _ => true

/-- The bytes written so far, joined in the cells themselves: the back part is moved
up to the front part, over which its old place may reach, and what is behind both is
cut off. A full region is left as it is. -/
def compact (region : Region) : Bytes :=
  if region.front + region.back = region.cells.size then region.cells.toList
  else ((overwrite region.cells region.front region.backBytes).extract 0
    (region.front + region.back)).toList

@[simp]
theorem run_nil (region : Region) : region.run [] = region :=
  rfl

@[simp]
theorem run_cons (region : Region) (step : Step) (steps : List Step) :
    region.run (step :: steps) = (region.after step).run steps :=
  rfl

@[simp]
theorem after_back (region : Region) (b : UInt8) : region.after (.back b) = region.pushBack b :=
  rfl

@[simp]
theorem after_reserve (region : Region) (count : Nat) :
    region.after (.reserve count) = region.reserve count :=
  rfl

end KeyedRows.Region
