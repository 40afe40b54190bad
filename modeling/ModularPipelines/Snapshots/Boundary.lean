import ModularPipelines.Snapshots.Documents

namespace ModularPipelines.Snapshots
open Library Services Runner

def artifactsFolder : List Char := "shared_artifacts".toList

/-- What `_retain_input_artifacts` resolves lies in the shared artifacts. -/
def insideArtifacts (path : String) : Prop := (pathParts path).head? = some artifactsFolder

instance (path : String) : Decidable (insideArtifacts path) :=
  inferInstanceAs (Decidable ((pathParts path).head? = some artifactsFolder))

section Exports
variable {snapshotId serviceId : String} {parts folder : List (List Char)}

end Exports

end ModularPipelines.Snapshots
