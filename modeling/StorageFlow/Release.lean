/-
# StorageFlow.Release — the name and the version the program reports.
-/
import StorageFlow.Text

namespace StorageFlow.Release

/-- The name of the program. -/
def name : Text := "ptrguard"

/-- The version of the program. -/
def version : Text := "0.3.0"

/-- The name together with the version. -/
def title : Text := name ++ " " ++ version

end StorageFlow.Release
