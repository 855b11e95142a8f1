import InferenceEngine.Model.Config

/-!
# Repositories

A repository says which models and which of their versions are present. The repository in
memory holds one entry for a name.
-/

namespace InferenceEngine

structure RepositoryModel where
  config : ModelConfig
  versions : List Int
  deriving DecidableEq, Inhabited

namespace RepositoryModel

def toJson (model : RepositoryModel) : Json :=
  .ofMembers [("config", model.config.toJson), ("versions", .ofList Json.ofInt model.versions)]

end RepositoryModel

abbrev Repository := OrderedMap String RepositoryModel

namespace Repository

/-- Puts a model into a repository, over one of the same name. -/
def insertModel (r : Repository) (config : ModelConfig) (versions : List Int) : Repository :=
  r.insert config.name ⟨config, versions⟩

/-- The models of a repository, in the order of their names. -/
def scan (r : Repository) : List RepositoryModel := r.values

end Repository

end InferenceEngine
