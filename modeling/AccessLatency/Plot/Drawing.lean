import AccessLatency.Chart.TexFigure
import AccessLatency.Files.Content
import AccessLatency.Plot.Fault

/-!
# Drawing a chart into a file

A chart is drawn in the format of its plan and written under the path of the plan. For a PDF the
document goes to a typesetter, which is started in the folder of the path and names its file after
the job; the job is named after the stem of the path.

The drawing of an image is broken off if its layout fails, on an axis that is to be marked evenly
and has no bounds, or on a legend that is out of reach. Then the image is written as far as it got.
A bitmap is not begun if its points are too many to be counted in a register, and broken off if they
are too many for a position. It fails if it has no points: then its file holds the mark that ends a
bitmap, and nothing else. All other faults leave the folders as they are.
-/

set_option autoImplicit false

namespace AccessLatency

/-- How the typesetter answers a request: it does the job, it stops with status one, or it is not
installed. -/
inductive Typesetter where
  | working
  | failing
  | absent
  deriving DecidableEq, Repr

namespace Typesetter

/-- The longest argument of a program has fewer bytes than this. -/
def argumentLimit : Nat := 131072

/-- Whether the arguments of a request can be handed to a program. -/
def fits (request : TypesetRequest) : Bool :=
  request.arguments.all fun argument => argument.utf8ByteSize < argumentLimit

/-- Whether a text can be handed to a program. -/
def isPassable (s : String) : Bool := !(s.toList.any fun c => c.val == 0)

/-- Start the typesetter in a folder. Its file is there if and only if it succeeds. -/
def run (typesetter : Typesetter) (folders : Folders) (folder : List Char)
    (request : TypesetRequest) : Except DrawingFault Folders :=
  if !(isPassable (String.ofList folder) && isPassable request.jobName) then
    .error (.typesetterUnavailable .nulInArgument)
  else
    match FileTree.openFolder folders folder with
    | .error why => .error (.typesetterUnavailable why)
    | .ok place =>
      if typesetter = .absent then .error (.typesetterUnavailable .missing)
      else if !fits request then
        .error (.typesetterUnavailable .argumentTooLong)
      else if typesetter = .failing then .error (.typesetterStopped 1)
      else
        match FileTree.fileIn folders place (request.jobName.toList ++ ".pdf".toList) with
        | .error _ => .error (.typesetterStopped 1)
        | .ok file => .ok (FileTree.put folders file (.file (.typeset request)))

end Typesetter

/-- What a step leaves behind that either changes the folders or fails. -/
def Folders.orUnchanged (folders : Folders) (changed : Except PlotFault Folders) :
    Folders × Except PlotFault Unit :=
  match changed with
  | .ok after => (after, .ok ())
  | .error why => (folders, .error why)

namespace Bitmap

/-- Whether the points of a bitmap are too many to be counted in a register. -/
def isUncountable (width height : UInt32) : Bool := 2 ^ 32 ≤ width.toNat * height.toNat

/-- Why the background of a bitmap cannot be filled: it has too many points for a position, though
its sides are positions. -/
def fillFault? (width height : UInt32) : Option PlotFault :=
  let isUnreachable :=
    decide (0 < Position.ofSide width) && decide (0 < Position.ofSide height)
      && decide (2 ^ 31 ≤ Position.ofSide width * Position.ofSide height)
  if isUnreachable then some (.overflow .multiplication) else none

/-- The mark that ends a bitmap in its file. -/
def ending : List UInt8 := [0, 0, 0, 0, 73, 69, 78, 68, 174, 66, 96, 130]

/-- A side of an image that has no extent, the width before the height. -/
def emptySide? (width height : UInt32) : Option ImageSide :=
  if width = 0 then some .width else if height = 0 then some .height else none

/-- Write the bitmap of a chart. -/
def write (plan : ChartPlan) (folders : Folders) : Folders × Except PlotFault Unit :=
  let put (content : FileContent) : Except PlotFault Folders :=
    (Folders.writeFile folders plan.output content).mapError fun why => .drawing (.bitmap why)
  match emptySide? plan.width plan.height with
  | none => folders.orUnchanged (put (.bitmap plan.width plan.height))
  | some side =>
    match put (.octets ending) with
    | .error why => (folders, .error why)
    | .ok after => (after, .error (.drawing (.emptyBitmap side)))

end Bitmap

namespace Chart

/-- The request to typeset a chart. -/
def typesetRequest (chart : Chart) (plan : ChartPlan) : TypesetRequest :=
  { jobName := String.ofList ((Path.stem? plan.output.toList).getD [])
    document := (TexFigure.ofChart chart plan).document }

/-- The folder that a typesetter for a path is started in. -/
def typesetFolder (path : String) : List Char :=
  match Path.parent path.toList with
  | [] => Path.here
  | folder => folder

/-- Whether an axis has no bound that is a number. -/
def lacksBounds (range : Range) : Bool := range.lower.isNaN && range.upper.isNaN

/-- Whether an axis cannot be marked: marks on a linear one are spread between its bounds. -/
def cannotMark (scale : AxisScale) (range : Range) : Bool :=
  scale == .linear && lacksBounds range

/-- Whether the image of a chart cannot be drawn for one of its axes. -/
def cannotDraw (chart : Chart) (plan : ChartPlan) : Bool :=
  cannotMark plan.xScale chart.xRange || cannotMark plan.yScale chart.yRange

/-- The number of lines in the legend of a chart. -/
def legendLines (chart : Chart) : Nat := chart.curves.length + chart.landmarks.length

/-- The drawing of a chart as far as it gets, and what breaks it off. -/
def outline (chart : Chart) (plan : ChartPlan) : SvgOutline × Option PlotFault :=
  match ChartLayout.ofSize plan.width plan.height with
  | .error fault =>
    (if fault.titled then SvgOutline.titled plan else SvgOutline.blank plan,
      some (.overflow fault.why))
  | .ok layout =>
    let drawing := SvgOutline.ofChart chart plan layout
    if chart.cannotDraw plan then (SvgOutline.titled plan, some .axisWithoutBounds)
    else
      match layout.legendFault? chart.legendLines with
      | some (line, why) =>
        (drawing.withoutLast (chart.legendLines - line), some (.overflow why))
      | none => (drawing, none)

/-- An image that is written as far as it got, and how its drawing ends: what broke it off counts
for more than what may be wrong with the file. -/
def brokenBy (fault? : Option PlotFault) (written : Folders × Except PlotFault Unit) :
    Folders × Except PlotFault Unit :=
  match fault? with
  | some fault => (written.1, .error fault)
  | none => written

/-- Write the outline of a chart. -/
def writeOutline (plan : ChartPlan) (folders : Folders) (drawing : SvgOutline) :
    Folders × Except PlotFault Unit :=
  folders.orUnchanged
    ((Folders.writeFile folders plan.output (.outline drawing)).mapError fun why =>
      .drawing (.outline why))

/-- Draw a chart and write it: the folders with the chart in it, or the fault and the folders that
are left. -/
def draw (chart : Chart) (plan : ChartPlan) (typesetter : Typesetter) (folders : Folders) :
    Folders × Except PlotFault Unit :=
  match plan.format with
  | .png =>
    if Bitmap.isUncountable plan.width plan.height then
      (folders, .error (.overflow .multiplication))
    else
      brokenBy ((Bitmap.fillFault? plan.width plan.height).or (chart.outline plan).2)
        (Bitmap.write plan folders)
  | .svg =>
    let (drawing, fault?) := chart.outline plan
    brokenBy fault? (writeOutline plan folders drawing)
  | .tex =>
    folders.orUnchanged
      ((Folders.writeFile folders plan.output
        (.text (TexFigure.ofChart chart plan).document)).mapError fun why => .file plan.output why)
  | .pdf =>
    folders.orUnchanged
      ((typesetter.run folders (typesetFolder plan.output) (chart.typesetRequest plan)).mapError
        .drawing)

end Chart

end AccessLatency
