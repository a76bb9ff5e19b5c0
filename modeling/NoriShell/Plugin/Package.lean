import NoriShell.Collections.SortByKey
import NoriShell.Plugin.Settings

/-! The archive of a plugin package: which entries `plugin-platform` accepts, and the files it
extracts. -/

namespace NoriShell.Plugin.Package

open Collections Settings

end NoriShell.Plugin.Package
