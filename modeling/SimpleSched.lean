import SimpleSched.Theory.Lts
import SimpleSched.Theory.Placement
import SimpleSched.Theory.Counting
import SimpleSched.Mio
import SimpleSched.Runtime.State
import SimpleSched.Runtime.Step
import SimpleSched.Runtime.Registers
import SimpleSched.Runtime.Place
import SimpleSched.Runtime.Effect
import SimpleSched.Runtime.PlaceStep
import SimpleSched.Runtime.Waits
import SimpleSched.Runtime.NoneLost
import SimpleSched.Runtime.Account
import SimpleSched.Runtime.Quiescence
import SimpleSched.Runtime.Capacity
import SimpleSched.Runtime.Exclusive
import SimpleSched.Runtime.Wakeup
import SimpleSched.Sync.Mutex
import SimpleSched.Sync.Exclusion
import SimpleSched.Sync.Poison
import SimpleSched.Sync.Counter
import SimpleSched.Runtime.History
import SimpleSched.Net.Http.Listen
import SimpleSched.Theory.Fallback
import SimpleSched.Net.Tcp
import SimpleSched.Net.Udp
import SimpleSched.Net.Http.KeepAlive
import SimpleSched.Net.Http.Continue
import SimpleSched.Runtime.References
import SimpleSched.Runtime.Results
import SimpleSched.Runtime.Alone
import SimpleSched.Sync.Truth
import SimpleSched.Sync.Turns
import SimpleSched.Runtime.Atomic
import SimpleSched.Theory.Trace
import SimpleSched.Runtime.SpawnOrder
import SimpleSched.Runtime.Polling
import SimpleSched.Theory.Refinement
import SimpleSched.Theory.Tasks
import SimpleSched.Runtime.Tasks
import SimpleSched.Theory.Fifo
import SimpleSched.Runtime.Fifo
import SimpleSched.Runtime.Stranded
import SimpleSched.Runtime.Stacks
import SimpleSched.Theory.Lives
import SimpleSched.Theory.Blocking
import SimpleSched.Runtime.Interest
import SimpleSched.Net.Sockets
import SimpleSched.Net.Blocking
import SimpleSched.Net.Delivery
import SimpleSched.Theory.Programs
import SimpleSched.Net.Programs
import SimpleSched.Net.Idle
import SimpleSched.Net.Echo
import SimpleSched.Net.Http.Output
import SimpleSched.Sync.Lock
import SimpleSched.Net.Server
