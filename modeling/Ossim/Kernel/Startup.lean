import Ossim.Kernel.Configuration
import Ossim.Kernel.Liveness

namespace Ossim
namespace Kernel

open Memory Scan Loader
open Ossim.Configuration

/-!
# From the files to the last process

`main` reads the configuration, and `ld_routine` loads the program of each process
when its turn comes.  A file that is missing or is no program ends the simulator
at that point, so `setUp` speaks about files that can all be loaded; what is
loaded does not depend on when that happens.
-/

/-! ## Loading -/

end Kernel
end Ossim
