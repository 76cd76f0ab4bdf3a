import KlipperMcu.Host.StepCompress

/-!
# compress_bisect_add

The search for a move that covers as many queued steps as possible. All variables are signed
32-bit words that wrap around, as in the source.
-/

namespace KlipperMcu.Compress

def idivUp (n d : Int32) : Int32 := if 0 ≤ n then (n + d - 1) / d else n / d

def idivDown (n d : Int32) : Int32 := if 0 ≤ n then n / d else (n - d + 1) / d

/-- The least number from `x` on that reaches `low` when multiplied by `n`. -/
def raiseTo (x n low : Int32) : Int32 := if x * n < low then idivUp low n else x

/-- The greatest number up to `x` that stays below `high` when multiplied by `n`. -/
def lowerTo (x n high : Int32) : Int32 := if high < x * n then idivDown high n else x

/-- `QUADRATIC_DEV`. -/
def quadraticDev : UInt32 := 11

def addFactor (count : Int32) : Int32 := count * (count - 1) / 2

/-- How the search for the longest sequence with a given `add` ends: at the end of the queue, or at
a point that no interval can reach. -/
inductive Extent where
  | all (interval : Int32) (count : Nat)
  | stop (count : Nat) (nextpoint : Points) (nextmininterval nextmaxinterval interval : Int32)
deriving DecidableEq, Repr

/-- The inner loop of `compress_bisect_add` with `count` steps covered and `left` steps up to
`qlast`. It is `none` when it reads past the end of the queue. -/
def extend (sc : StepCompress) (add : Int32) :
    (left count : Nat) → (nextmininterval nextmaxinterval interval : Int32) → Option Extent
  | 0, count, _, _, interval => some (.all interval count)
  | left + 1, count, nextmininterval, nextmaxinterval, interval =>
    match minmaxPoint sc count with
    | none => none
    | some nextpoint =>
      let nextcount := Int32.ofNat (count + 1)
      let c := add * addFactor nextcount
      let nextmininterval := raiseTo nextmininterval nextcount (nextpoint.minp - c)
      let nextmaxinterval := lowerTo nextmaxinterval nextcount (nextpoint.maxp - c)
      if nextmaxinterval < nextmininterval then
        some (.stop count nextpoint nextmininterval nextmaxinterval interval)
      else extend sc add left (count + 1) nextmininterval nextmaxinterval nextmaxinterval

/-- The variables of the outer loop. -/
structure Bisect where
  outerMininterval : Int32
  outerMaxinterval : Int32
  add : Int32
  minadd : Int32
  maxadd : Int32
  bestinterval : Int32
  bestcount : Int32
  bestadd : Int32
  bestreach : Int32
  zerointerval : Int32
  zerocount : Int32
deriving DecidableEq, Repr

/-- The variables before the first round, where the first queued step has the window `point`. -/
def Bisect.start (point : Points) : Bisect where
  outerMininterval := point.minp
  outerMaxinterval := point.maxp
  add := 0
  minadd := -0x8000
  maxadd := 0x7fff
  bestinterval := 0
  bestcount := 1
  bestadd := 1
  bestreach := Int32.minValue
  zerointerval := 0
  zerocount := 0

def Bisect.better (b : Bisect) (reach interval : Int32) : Bool :=
  b.bestreach < reach || (reach == b.bestreach && b.bestinterval < interval)

/-- The sequence is the best one found so far. -/
def Bisect.record (b : Bisect) (interval count reach : Int32) : Bisect :=
  { b with
    bestinterval := interval
    bestcount := count
    bestadd := b.add
    bestreach := reach
    zerointerval := if b.add = 0 then interval else b.zerointerval
    zerocount := if b.add = 0 then count else b.zerocount }

/-- Whether a greater or a lesser `add` could extend a sequence of `count` steps. -/
def Bisect.split (b : Bisect) (count : Int32) (nextpoint : Points)
    (nextmininterval nextmaxinterval interval : Int32) : Bisect :=
  let nextcount := count + 1
  if b.add * addFactor nextcount + interval * nextcount < nextpoint.minp then
    { b with minadd := b.add + 1, outerMaxinterval := nextmaxinterval }
  else { b with maxadd := b.add - 1, outerMininterval := nextmininterval }

/-- The range of `add` limited by the deviation of two quadratic sequences. -/
def Bisect.limitDeviation (sc : StepCompress) (b : Bisect) (count : Int32) : Bisect :=
  if 1 < count then
    let errdelta := (sc.maxError * quadraticDev / (count * count).toUInt32).toInt32
    { b with
      minadd := if b.minadd < b.add - errdelta then b.add - errdelta else b.minadd
      maxadd := if b.add + errdelta < b.maxadd then b.add + errdelta else b.maxadd }
  else b

/-- The range of `add` limited by the window of the next point. -/
def Bisect.limitPoint (b : Bisect) (count : Int32) (nextpoint : Points) : Bisect :=
  let nextcount := count + 1
  let nextaddfactor := addFactor nextcount
  { b with
    minadd := raiseTo b.minadd nextaddfactor (nextpoint.minp - b.outerMaxinterval * nextcount)
    maxadd := lowerTo b.maxadd nextaddfactor (nextpoint.maxp - b.outerMininterval * nextcount) }

def toMove (interval count add : Int32) : StepMove :=
  ⟨interval.toUInt32, count.toUInt32.toUInt16, add.toInt16⟩

/-- The move returned after the outer loop. -/
def Bisect.finish (b : Bisect) : StepMove :=
  if b.bestcount ≤ b.zerocount + b.zerocount / 16 then toMove b.zerointerval b.zerocount 0
  else toMove b.bestinterval b.bestcount b.bestadd

/-- The end of a round of the outer loop. -/
inductive Round where
  | done (move : StepMove)
  | again (b : Bisect)
deriving DecidableEq, Repr

/-- The part of a round after the inner loop. -/
def Bisect.conclude (sc : StepCompress) (b : Bisect) (count : Int32) (nextpoint : Points)
    (nextmininterval nextmaxinterval interval : Int32) : Round :=
  let reach := b.add * addFactor count + interval * count
  if b.better reach interval ∧ 0x200 < count then .done (b.record interval count reach).finish
  else
    let b := if b.better reach interval then b.record interval count reach else b
    let b := b.split count nextpoint nextmininterval nextmaxinterval interval
    let b := b.limitDeviation sc count
    let b := b.limitPoint count nextpoint
    if b.maxadd < b.minadd then .done b.finish
    else .again { b with add := b.maxadd - (b.maxadd - b.minadd) / 4 }

/-- One round of the outer loop over the first `qlast` queued steps. -/
def Bisect.round (sc : StepCompress) (qlast : Nat) (b : Bisect) : Option Round :=
  match extend sc b.add (qlast - 1) 1 b.outerMininterval b.outerMaxinterval b.outerMaxinterval with
  | none => none
  | some (.all interval count) => some (.done (toMove interval (Int32.ofNat count) b.add))
  | some (.stop count nextpoint nextmininterval nextmaxinterval interval) =>
    some (b.conclude sc (Int32.ofNat count) nextpoint nextmininterval nextmaxinterval interval)

/-- At most `rounds` rounds of the outer loop, `none` when they are used up. -/
def Bisect.loop (sc : StepCompress) (qlast : Nat) : Nat → Bisect → Option StepMove
  | 0, _ => none
  | rounds + 1, b =>
    match b.round sc qlast with
    | none => none
    | some (.done move) => some move
    | some (.again b) => Bisect.loop sc qlast rounds b

/-- `compress_bisect_add` with a bound on the rounds of its outer loop. -/
def compressBisectAdd (rounds : Nat) (sc : StepCompress) : Option StepMove :=
  match minmaxPoint sc 0 with
  | none => none
  | some point => Bisect.loop sc (min sc.queue.length 65535) rounds (Bisect.start point)

end KlipperMcu.Compress
