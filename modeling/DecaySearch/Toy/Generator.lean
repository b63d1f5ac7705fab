-- Toy events: prompt tracks from the primary vertex, now and then the daughters
-- of a displaced decay, and now and then a cascade of a bachelor and a V0 that
-- flies further. Tracks are straight lines, and their impact parameters follow
-- from their geometry.
import DecaySearch.Toy.Settings
import DecaySearch.Toy.Stream
import DecaySearch.Event

namespace DecaySearch.Toy

/-! ## Tracks in the making -/

structure Workshop where
  stream : Stream
  /-- The identity of the next track. -/
  nextId : UInt64
  /-- The tracks so far, last one first. -/
  made : List Track

/-- A computation that draws random numbers and adds tracks to an event. -/
abbrev Make := StateT Workshop (Except Fault)

namespace Make

def draw {α : Type} (d : Draw α) : Make α := fun w => do
  let (a, stream) ← d w.stream
  pure (a, { w with stream })

end Make

/-- The ratio of the circumference of a circle to its radius. -/
def turn : Float := 2 * 3.141592653589793

def randomMomentum (s : ToySettings) : Make Momentum := do
  let pt ← .draw (.between s.ptMin s.ptMax)
  let phi ← .draw (.between 0 turn)
  let eta ← if 0 < s.etaMax then .draw (.between (-s.etaMax) s.etaMax) else pure 0
  pure ⟨pt * phi.cos, pt * phi.sin, pt * eta.sinh⟩

def randomSign : Make Sign := do
  let positive ← .draw (.chance 0.5)
  pure (if positive then .positive else .negative)

/-- The decay point of a particle, whose flight lengths fall off exponentially. -/
def flight (origin : Position) (momentum : Momentum) (meanLength : Float) : Make Position := do
  let u ← .draw .unitInterval
  let length := -meanLength * (1 - u).log
  pure (origin + momentum.unit.scale length)

/-- A point that is displaced across the beam. -/
def smeared (resolution : Float) (point : Position) : Make Position := do
  let dx ← .draw (.symmetric resolution)
  let dy ← .draw (.symmetric resolution)
  pure ⟨point.x + dx, point.y + dy, point.z⟩

/-- A kick in a random direction. -/
def randomKick : Make Vec3 := do
  let x ← .draw (.between (-0.5) 0.5)
  let y ← .draw (.between (-0.5) 0.5)
  let z ← .draw (.between (-0.5) 0.5)
  pure ⟨x, y, z⟩

/-- Runs a computation for each element of a list. -/
def forEach {α β : Type} (make : α → Make β) : List α → Make (List β)
  | [] => pure []
  | a :: rest => do
    let b ← make a
    let others ← forEach make rest
    pure (b :: others)

/-- Splits a momentum among daughters. They share it with random weights, and
get random kicks that add up to zero. -/
def split (parent : Momentum) (count : Nat) : Make (List Momentum) := do
  let places := List.range count
  let weights ← forEach (fun _ => .draw (.between 0.5 1.5)) places
  let kicks ← forEach (fun _ => randomKick) places
  let total := weights.foldl (· + ·) 0
  let mean := (Kinematics.totalMomentum kicks).divide (Float.ofNat count)
  pure (List.zipWith (fun weight kick => parent.scale (weight / total) + (kick - mean))
    weights kicks)

/-- The quality of a track. Bad tracks have few clusters and no hit close to the
beam. -/
def randomQuality (s : ToySettings) : Make TrackQuality := do
  let bad ← .draw (.chance (Draw.clampProbability s.badTrackProbability))
  if bad then
    let clusters ← .draw (.between16 20 70)
    let extra ← .draw (.between16 0 10)
    let tpcRefit ← .draw (.chance 0.5)
    let itsRefit ← .draw (.chance 0.5)
    let hits ← .draw .byte
    pure ⟨clusters, clusters + extra, tpcRefit, itsRefit, hits &&& 0x3C⟩
  else
    let clusters ← .draw (.between16 70 150)
    let extra ← .draw (.between16 0 10)
    let hits ← .draw .byte
    pure ⟨clusters, clusters + extra, true, true, (hits &&& 0x3F) ||| 0x01⟩

/-- Adds a track to the event. There must be an identity left for the track
after it. -/
def addTrack (s : ToySettings) (primary : Position) (sign : Sign) (momentum : Momentum)
    (origin : Position) : Make TrackId := do
  let quality ← randomQuality s
  let w ← get
  let id : TrackId := ⟨w.nextId⟩
  let track : Track :=
    { id, momentum, sign
      dcaXY := Kinematics.impactParameterXY primary origin momentum
      dcaZ := Kinematics.impactParameterZ primary origin momentum
      position := origin
      quality }
  if w.nextId + 1 = 0 then fun _ => .error .counterOverflow
  else
    set { w with nextId := w.nextId + 1, made := track :: w.made }
    pure id

/-! ## Parts of an event -/

def addPromptTrack (s : ToySettings) (primary : Position) : Make TrackId := do
  let sign ← randomSign
  let momentum ← randomMomentum s
  let origin ← smeared s.resolution primary
  addTrack s primary sign momentum origin

def repeated (make : Make TrackId) : Nat → Make Unit
  | 0 => pure ()
  | count + 1 => do
    let _ ← make
    repeated make count

/-- The charges of the daughters of a displaced decay. -/
def daughterSigns (threeProng conjugate : Bool) : List Sign :=
  if !threeProng then [.positive, .negative]
  else if conjugate then [.negative, .positive, .negative]
  else [.positive, .negative, .positive]

def addDecay (s : ToySettings) (primary : Position) : Make Unit := do
  let threeProng ← .draw (.chance (Draw.clampProbability s.threeProngFraction))
  let conjugate ← .draw (.chance 0.5)
  let signs := daughterSigns threeProng conjugate
  let parent ← randomMomentum s
  let secondary ← flight primary parent s.meanDecayLength
  let daughters ← split parent signs.length
  let _ ← forEach (fun (momentum, sign) => addTrack s primary sign momentum secondary)
    (daughters.zip signs)
  pure ()

def splitInTwo (parent : Momentum) : Make (Momentum × Momentum) := do
  match ← split parent 2 with
  | [a, b] => pure (a, b)
  | short => fun _ => .error (.outOfBounds short.length 2)

def addCascade (s : ToySettings) (primary : Position) (v0 : V0Id) : Make V0 := do
  let bachelorSign ← randomSign
  let parent ← randomMomentum s
  let secondary ← flight primary parent s.meanDecayLength
  let (bachelor, neutral) ← splitInTwo parent
  let vertex ← flight secondary neutral s.v0MeanDecayLength
  let (plus, minus) ← splitInTwo neutral
  let positive ← addTrack s primary .positive plus vertex
  let negative ← addTrack s primary .negative minus vertex
  let _ ← addTrack s primary bachelorSign bachelor secondary
  pure ⟨v0, positive, negative, vertex⟩

/-! ## Events -/

/-- The seed of the stream of an event. Each event has a stream of its own, so
that events do not depend on the order in which they are generated. -/
def eventSeed (seed index : UInt64) : UInt64 := seed ^^^ ((index + 1) * goldenGamma)

/-- The identity of the first track of an event, and of its V0. -/
def firstId (index : UInt64) : UInt64 := index <<< 16

/-- Everything in an event but its primary vertex. -/
def addAll (s : ToySettings) (primary : Position) (index : UInt64) : Make (List V0) := do
  let prompt ← .draw (.upTo s.maxPromptTracks)
  repeated (addPromptTrack s primary) prompt.toNat
  let decays ← .draw (.chance (Draw.clampProbability s.decayProbability))
  if decays then addDecay s primary
  let cascades ← .draw (.chance (Draw.clampProbability s.cascadeProbability))
  if cascades then
    let v0 ← addCascade s primary ⟨firstId index⟩
    pure [v0]
  else pure []

/-- The primary vertex, and whether the event is accepted. -/
def drawVertex (s : ToySettings) : Draw (Position × Bool) := do
  let z ← Draw.symmetric s.vertexSpreadZ
  let rejected ← Draw.chance (Draw.clampProbability s.rejectedEventProbability)
  pure (⟨0, 0, z⟩, !rejected)

/-- The generator of toy events, whose momentum range is checked. -/
structure Generator where
  settings : ToySettings
  deriving DecidableEq

namespace Generator

/-- Momenta must be positive, and their range not empty. -/
def make (settings : ToySettings) : Except Fault Generator :=
  if 0 < settings.ptMin && settings.ptMin < settings.ptMax then .ok ⟨settings⟩
  else .error .invalidPtRange

def generate (g : Generator) (index : UInt64) : Except Fault Event := do
  let s := g.settings
  let ((primary, accepted), stream) ← drawVertex s (.ofSeed (eventSeed s.seed index))
  let (v0s, workshop) ← addAll s primary index ⟨stream, firstId index, []⟩
  pure { primaryVertex := primary, accepted, tracks := workshop.made.reverse, v0s }

end Generator

end DecaySearch.Toy
