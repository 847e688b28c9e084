import MinputHop.Library.StagedLoop
import MinputHop.Program.Progress
import MinputHop.Program.Keepalive
import MinputHop.Program.Backlog
import MinputHop.Program.OutputBounds
import MinputHop.Program.HostOrder
import MinputHop.Program.Drift
import MinputHop.Program.OldcLanguage
import MinputHop.Program.Names
import MinputHop.Program.Ownership
import MinputHop.Program.Reentrancy
import MinputHop.Program.Sending
import MinputHop.Program.ExitStatus
import MinputHop.Program.Release
import MinputHop.Program.OldcMemory
import MinputHop.Program.Desktop
import MinputHop.Program.Notices
import MinputHop.Program.Window
import MinputHop.Program.Answering
import MinputHop.Program.EndToEnd
import MinputHop.Program.Steady
import MinputHop.Program.Cascade
import MinputHop.Program.Workload
import MinputHop.Program.Delivery
import MinputHop.Program.Quitting
