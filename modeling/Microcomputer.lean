import Microcomputer.CommandLine.Outcome
import Microcomputer.Debugger.View
import Microcomputer.Main
import Microcomputer.Playground
import Microcomputer.Proofs.Processor.Refinement
import Microcomputer.Proofs.Processor.Sequencer
import Microcomputer.Proofs.Source.Partition
import Microcomputer.Proofs.Source.Recognition
import Microcomputer.Proofs.Source.Separation
import Microcomputer.Proofs.Assembly.Acceptance
import Microcomputer.Proofs.Assembly.Emission
import Microcomputer.Proofs.Listing.Reassembly
import Microcomputer.Proofs.Bus.Routing
import Microcomputer.Proofs.Processor.Faults
import Microcomputer.Proofs.Processor.StoreLog
import Microcomputer.Proofs.Printer.Execution
import Microcomputer.Proofs.Bus.Memory
import Microcomputer.Proofs.Processor.Lockstep
import Microcomputer.Proofs.Processor.Isolation
import Microcomputer.Proofs.Assembly.Reordering
import Microcomputer.Proofs.Assembly.Linking
import Microcomputer.Proofs.Listing.Recovery
import Microcomputer.Proofs.Debugger.Continuous
import Microcomputer.Proofs.Debugger.Operations
import Microcomputer.Proofs.Playground.Restart
import Microcomputer.Proofs.CommandLine.Assembled
import Microcomputer.Proofs.Processor.Accounting
import Microcomputer.Proofs.Snapshot.Faithful
import Microcomputer.Proofs.CommandLine.Overwriting
import Microcomputer.Proofs.Debugger.Reporting
import Microcomputer.Proofs.Debugger.Naming
import Microcomputer.Proofs.Debugger.Labels
import Microcomputer.Proofs.Assembly.Renaming
import Microcomputer.Proofs.Listing.Columns
import Microcomputer.Proofs.Debugger.CodeWindow
import Microcomputer.Proofs.Debugger.MemoryPane
import Microcomputer.Proofs.Source.Stacking
import Microcomputer.Proofs.Assembly.Blame
import Microcomputer.Proofs.MemoryMap.Reading
import Microcomputer.Proofs.CommandLine.Tracing
