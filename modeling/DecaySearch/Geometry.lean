-- Vectors and matrices of three dimensions over doubles. Every operation fixes
-- the order of its additions, because rounding makes the order visible.

namespace DecaySearch

/-! ## Vectors -/

structure Vec3 where
  x : Float
  y : Float
  z : Float
  deriving DecidableEq

/-- The momentum of a particle, in GeV/c. -/
abbrev Momentum := Vec3

/-- A place in the detector, in cm. -/
abbrev Position := Vec3

namespace Vec3

def zero : Vec3 := ⟨0, 0, 0⟩

def add (a b : Vec3) : Vec3 := ⟨a.x + b.x, a.y + b.y, a.z + b.z⟩

def sub (a b : Vec3) : Vec3 := ⟨a.x - b.x, a.y - b.y, a.z - b.z⟩

def scale (a : Vec3) (factor : Float) : Vec3 := ⟨a.x * factor, a.y * factor, a.z * factor⟩

def divide (a : Vec3) (divisor : Float) : Vec3 := ⟨a.x / divisor, a.y / divisor, a.z / divisor⟩

/-- The scalar product, summed from the first component on. -/
def dot (a b : Vec3) : Float := a.x * b.x + a.y * b.y + a.z * b.z

def normSquared (a : Vec3) : Float := a.dot a

def norm (a : Vec3) : Float := a.normSquared.sqrt

/-- The vector of length one with the same direction. -/
def unit (a : Vec3) : Vec3 := a.divide a.norm

/-- The length of the part that is orthogonal to the beam. -/
def transverse (a : Vec3) : Float := (a.x * a.x + a.y * a.y).sqrt

def components (a : Vec3) : List Float := [a.x, a.y, a.z]

end Vec3

instance : Add Vec3 := ⟨Vec3.add⟩
instance : Sub Vec3 := ⟨Vec3.sub⟩

/-! ## Matrices -/

structure Mat3 where
  row0 : Vec3
  row1 : Vec3
  row2 : Vec3
  deriving DecidableEq

namespace Mat3

def zero : Mat3 := ⟨.zero, .zero, .zero⟩

def identity : Mat3 := ⟨⟨1, 0, 0⟩, ⟨0, 1, 0⟩, ⟨0, 0, 1⟩⟩

def add (a b : Mat3) : Mat3 := ⟨a.row0 + b.row0, a.row1 + b.row1, a.row2 + b.row2⟩

def sub (a b : Mat3) : Mat3 := ⟨a.row0 - b.row0, a.row1 - b.row1, a.row2 - b.row2⟩

def outer (a b : Vec3) : Mat3 := ⟨b.scale a.x, b.scale a.y, b.scale a.z⟩

def apply (m : Mat3) (v : Vec3) : Vec3 := ⟨m.row0.dot v, m.row1.dot v, m.row2.dot v⟩

/-- The determinants of the lower two rows without the first, the second and
the third column. -/
def lowerMinors (m : Mat3) : Vec3 :=
  ⟨m.row1.y * m.row2.z - m.row2.y * m.row1.z,
   m.row1.x * m.row2.z - m.row2.x * m.row1.z,
   m.row1.x * m.row2.y - m.row2.x * m.row1.y⟩

/-- Expands along the first row. -/
def determinant (m : Mat3) : Float :=
  let minors := m.lowerMinors
  m.row0.x * minors.x - m.row0.y * minors.y + m.row0.z * minors.z

/-- The inverse, unless the determinant is zero. Each cofactor is divided by
the determinant. -/
def inverse? (m : Mat3) : Option Mat3 :=
  let minors := m.lowerMinors
  let det := m.determinant
  if det == 0 then none
  else
    let r0 : Vec3 :=
      ⟨minors.x,
       m.row0.z * m.row2.y - m.row2.z * m.row0.y,
       m.row0.y * m.row1.z - m.row1.y * m.row0.z⟩
    let r1 : Vec3 :=
      ⟨-minors.y,
       m.row0.x * m.row2.z - m.row2.x * m.row0.z,
       m.row0.z * m.row1.x - m.row1.z * m.row0.x⟩
    let r2 : Vec3 :=
      ⟨minors.z,
       m.row0.y * m.row2.x - m.row2.y * m.row0.x,
       m.row0.x * m.row1.y - m.row1.x * m.row0.y⟩
    some ⟨r0.divide det, r1.divide det, r2.divide det⟩

end Mat3

instance : Add Mat3 := ⟨Mat3.add⟩
instance : Sub Mat3 := ⟨Mat3.sub⟩

end DecaySearch
