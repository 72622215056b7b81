import DotGrid.Config.Validation
import DotGrid.Document.Path
import DotGrid.Log.Record
import DotGrid.Yaml.Load

/-!
# Configuration files

A configuration file is a YAML document that is a mapping, or nothing at all. `RenderConfig.ofFile` gives the
configuration of a path and the text that was read there, if there was one. A report about a document copies the values
that it is about, which fails if one of them is too deep.
-/

namespace DotGrid

/-- A text with a single line feed for every line break of the common systems. -/
def lineFeeds : List Char → List Char
  | '\r' :: '\n' :: cs => '\n' :: lineFeeds cs
  | '\r' :: cs => '\n' :: lineFeeds cs
  | c :: cs => c :: lineFeeds cs
  | [] => []

namespace RenderConfig

/-- The configuration of the datum of a file. -/
def ofRoot (path : String) : Datum → Except ConfigFault RenderConfig
  | .null => ofEntries []
  | .mapping entries => ofEntries entries
  | d => .error (.notMapping path d.typeName)

/-- The depth of the values of fields: those of a document are at one, and those of its `render` mapping at two. -/
def fieldDepth : Nat := 2

/-- The names of the fields of numbers, whose values are reported if they are not converted. -/
def numberNames : List String := ["size", "start", "fps", "frames", "workers"]

/-- The nodes that a report about a document may copy, each one by itself: the values of its entries, and those of the
numbers inside of its `render` mapping. -/
def copiedNodes (l : Yaml.Loaded) : List Nat :=
  let entries := l.entries l.root
  let fields := (entries.filter fun e => e.1.sameKey Finding.renderKey).flatMap fun e => l.entries e.2
  entries.map (·.2) ++ (fields.filter fun e => numberNames.any fun name => e.1.sameKey (.text name)).map (·.2)

/-- Tells a document with a value that is too deep to be copied. A collection takes two calls to go through. -/
def isTooDeep (l : Yaml.Loaded) : Bool := (copiedNodes l).any fun id => 2 * deepestReport < l.copyDepth id

/-- A file by what is loaded from its text, if it can be read; an empty one holds nothing. -/
def loaded? (content : Option String) : Option (Option Yaml.Loaded) :=
  content.bind fun text => Yaml.load? (String.ofList (lineFeeds text.toList))

/-- The datum of a file. -/
def rootDatum (file : Option Yaml.Loaded) : Datum := (file.map fun l => l.datum fieldDepth).getD .null

/-- The fault of a file. A document with findings has a value that is too deep only among those that it reports. -/
def faultOfFile (file : Option Yaml.Loaded) (fault : ConfigFault) : ConfigFault :=
  if fault.isAboutDocument && file.any isTooDeep then .unreported .tooDeep else fault

/-- The configuration of a file, by its path and its text. -/
def ofFile (path : String) (content : Option String) : Except ConfigFault RenderConfig :=
  match loaded? content with
  | some file => (ofRoot (shortPath path) (rootDatum file)).mapError (faultOfFile file)
  | none => .error (.unreadable (shortPath path))

/-- A configuration on one line. -/
def shown (c : RenderConfig) : String :=
  let expression := (c.expression.map Datum.text).getD .null
  "RenderConfig(size=" ++ toString c.size ++ ", start=" ++ c.start.text ++ ", fps=" ++ c.fps.text ++ ", frames=" ++
    toString c.frames ++ ", clamp=" ++ (Number.boolean c.clamp).text ++ ", workers=" ++ toString c.workers ++
    ", expression=" ++ expression.shown ++ ")"

/-- The logger of configuration files. -/
def fileLogger : String := "inout.config"

/-- The record about a configuration that was loaded from a file. -/
def loadRecord (path : String) (c : RenderConfig) : Log.Record :=
  ⟨fileLogger, Log.debug, "Loaded render config from " ++ shortPath path ++ ": " ++ c.shown⟩

end RenderConfig

end DotGrid
