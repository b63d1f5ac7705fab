-- The named quantities that a column of a cut table may hold.

namespace DecaySearch

inductive CutVariable
  /-- Lower edge of the invariant mass window (GeV/c²). -/
  | massMin
  /-- Upper edge of the invariant mass window (GeV/c²). -/
  | massMax
  /-- Largest product of the transverse impact parameters of two daughters (cm²). -/
  | impactParameterProduct
  /-- Smallest cosine of the pointing angle. -/
  | cosPointingAngle
  /-- Smallest decay length (cm). -/
  | decayLength
  /-- Smallest absolute transverse impact parameter of a track (cm). -/
  | dcaXYMin
  /-- Largest absolute transverse impact parameter of a track (cm). -/
  | dcaXYMax
  deriving DecidableEq

namespace CutVariable

/-- All variables, in the order of their positions. -/
def all : List CutVariable :=
  [.massMin, .massMax, .impactParameterProduct, .cosPointingAngle, .decayLength, .dcaXYMin,
   .dcaXYMax]

def label : CutVariable → String
  | .massMin => "massMin"
  | .massMax => "massMax"
  | .impactParameterProduct => "d0d0"
  | .cosPointingAngle => "cosp"
  | .decayLength => "decL"
  | .dcaXYMin => "min_dcaxytoprimary"
  | .dcaXYMax => "max_dcaxytoprimary"

/-- Finds the variable with a label. Labels must match exactly. -/
def ofLabel? (label : String) : Option CutVariable := all.find? (·.label = label)

theorem mem_all (v : CutVariable) : v ∈ all := by cases v <;> decide

theorem ofLabel?_label (v : CutVariable) : ofLabel? v.label = some v := by cases v <;> decide

theorem ofLabel?_eq_some_iff {label : String} {v : CutVariable} :
    ofLabel? label = some v ↔ v.label = label := by
  constructor
  · intro h
    simpa using List.find?_some h
  · rintro rfl
    exact ofLabel?_label v

/-- Different variables have different labels. -/
theorem label_inj {v w : CutVariable} : v.label = w.label ↔ v = w := by
  constructor
  · intro h
    have hfound := ofLabel?_eq_some_iff.mpr h
    rw [ofLabel?_label] at hfound
    exact (Option.some.inj hfound).symm
  · rintro rfl
    rfl

end CutVariable

end DecaySearch
