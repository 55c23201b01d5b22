/-!
# The version

What the program says of itself.
-/
namespace ClassAtlas

def programName : String := "Trellis"

def version : String := "0.1.0"

/-- The line that names program and version. -/
def versionLine : String := programName ++ " v" ++ version

end ClassAtlas
