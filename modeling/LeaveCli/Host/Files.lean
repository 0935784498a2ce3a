import LeaveCli.Core.GuardedFs
import LeaveCli.Host.Events
import LeaveCli.Protocol.Decode

/-!
# The file endpoints (`apps/leave/src/local_server.rs`)

`list_files`, `read_file` and `write_file`: the guarded operations behind the HTTP API, with the
statuses and texts of their errors. The body of `write_file` is read by the `Json` extractor, which
the router lets read no more than `bodyLimit` bytes; what `serde_json` finds in them is the
parameter `fromSlice`.
-/

namespace LeaveCli.Host

open Lib LeaveCli.Core Protocol

namespace ApiError

def conflict (message : Str) : ApiError := ⟨409, message⟩

def payloadTooLarge (message : Str) : ApiError := ⟨413, message⟩

def unprocessable (message : Str) : ApiError := ⟨422, message⟩

def unavailable (message : Str) : ApiError := ⟨503, message⟩

def fromGuardedFs : GuardedFsError → ApiError
  | .conflict currentHash =>
    conflict (("file changed since it was read; current hash is " : Str) ++ currentHash)
  | .invalidPath => forbidden "path is invalid"
  | .outsideWorkspace => forbidden "path escapes the registered workspace"
  | .symlinkWriteDenied => forbidden "writes through symlinks are denied"
  | .notUtf8 => unprocessable "file is not valid UTF-8"
  | .tooLarge => payloadTooLarge "file exceeds the 2 MiB direct-editing limit"
  | .notDirectory => badRequest "workspace path is not a directory"
  | .io .notFound => notFound "file or directory was not found"
  | .io _ => unavailable "the host could not access that path"

end ApiError

/-! ## Bodies -/

/-- `DefaultBodyLimit::max`, for every route. -/
def bodyLimit : Nat := 3 * 1024 * 1024

/-- `Json::from_request`, of a request whose content type is JSON. -/
def extractJson {α : Type} (fromSlice : Bytes → Except SerdeError JsonDocument)
    (deserialize : JsonDocument → Except SerdeError α) (body : Bytes) : Except ApiError α :=
  if body.length > bodyLimit then
    .error (.payloadTooLarge "Failed to buffer the request body: length limit exceeded")
  else match fromSlice body with
    | .error _ => .error (.badRequest "Failed to parse the request body as JSON")
    | .ok document => (deserialize document).mapError fun _ =>
      .unprocessable "Failed to deserialize the JSON body into the target type"

structure WriteFileBody where
  path : Str
  baseHash : Str
  content : Str

def WriteFileBody.deserialize (document : JsonDocument) : Except SerdeError WriteFileBody := do
  let fields ← structFields ["path", "baseHash", "content"] document
  let path ← required fields "path" readString
  let baseHash ← required fields "baseHash" readString
  let content ← required fields "content" readString
  .ok ⟨path, baseHash, content⟩

/-- The fields of a request as a client writes them. -/
def WriteFileBody.fields (body : WriteFileBody) : List (Str × JsonValue) :=
  [("path", .text body.path), ("baseHash", .text body.baseHash), ("content", .text body.content)]

/-! ## Endpoints -/

variable (env : FsEnv) (tree : FileTree) (root : WorkspaceRoot)

def listFiles (path : Str) : Except ApiError (List DirectoryEntry) :=
  (listDirectory env tree root path.utf8).mapError .fromGuardedFs

def readFile (path : Str) : Except ApiError FileSnapshot :=
  (readText env tree root path.utf8).mapError .fromGuardedFs

/-- The handler, behind its extractor. -/
def writeFileBody (body : WriteFileBody) : Except ApiError FileSnapshot × FileTree :=
  if body.content.utf8.length > 2 * 1024 * 1024 then
    (.error (.payloadTooLarge "file exceeds the 2 MiB direct-editing limit"), tree)
  else
    let result := writeText env tree root body.path.utf8 body.baseHash body.content
    (result.1.mapError .fromGuardedFs, result.2)

def writeFile (fromSlice : Bytes → Except SerdeError JsonDocument) (body : Bytes) :
    Except ApiError FileSnapshot × FileTree :=
  match extractJson fromSlice WriteFileBody.deserialize body with
  | .error rejection => (.error rejection, tree)
  | .ok body => writeFileBody env tree root body

end LeaveCli.Host
