/-
# Failures

What the work around generation can fail with. Generation itself never fails.
-/

import Letterpress.Files.System
import Letterpress.Image.Payload
import Letterpress.Json.Fault

namespace Letterpress

/-- The kinds of failures. -/
inductive FailureKind
  /-- There is no body to make an email of. -/
  | conversion
  /-- There is no image to put into it. -/
  | image
  | config
  | system
  deriving DecidableEq

/-- What the kind says in front of a message. -/
def FailureKind.lead : FailureKind → Text
  | conversion => "conversion failed: "
  | image => "unreadable file: "
  | config => "invalid config: "
  | system => "I/O error: "

/-- A failure with its cause. -/
inductive Failure
  | emptyDocument
  | wordDocument (path : Text)
  | documentFile (path : Text) (fault : FileFault)
  | image (fault : ImageFault)
  /-- An image file that holds no image. -/
  | imageIn (path : Text) (fault : ImageFault)
  | imageFile (path : Text) (fault : FileFault)
  /-- A configuration that cannot be read from a text. -/
  | config (text : Text) (fault : Json.Fault)
  | output (fault : FileFault)

namespace Failure

/-- The kind of a failure. -/
def kind : Failure → FailureKind
  | emptyDocument | wordDocument _ | documentFile _ _ => .conversion
  | image _ | imageIn _ _ | imageFile _ _ => .image
  | config _ _ => .config
  | output _ => .system

/-- The cause in words. -/
def detail : Failure → Text
  | emptyDocument => "document is empty"
  | wordDocument path => path ++ ": Word documents must be converted to HTML first"
  | documentFile path fault => path ++ ": " ++ fault.message
  | image fault => fault.message
  | imageIn path fault => path ++ ": " ++ fault.message
  | imageFile path fault => path ++ ": " ++ fault.message
  | config text fault => fault.message text
  | output fault => fault.message

/-- The failure in words. -/
def message (f : Failure) : Text := f.kind.lead ++ f.detail

end Failure

end Letterpress
