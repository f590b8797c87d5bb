import Flannel.Backend.RouteCache
import Flannel.Backend.Survival
import Flannel.Etcd.EmptyRegistry
import Flannel.Etcd.LeaseWatch
import Flannel.Etcd.Mixed
import Flannel.Etcd.Monitor
import Flannel.Etcd.Reservation
import Flannel.Ip.Link
import Flannel.Ipmatch.Lookup
import Flannel.Kube.Convergence
import Flannel.Kube.StoredMac
import Flannel.Mesh.Buffers
import Flannel.Mesh.Cleanup
import Flannel.Mesh.Enrollment
import Flannel.Mesh.Placement
import Flannel.Mesh.Pruning
import Flannel.Mesh.Recovery
import Flannel.Mesh.Token
import Flannel.Operator.Clusters
import Flannel.Operator.NodeHosts
import Flannel.Operator.Ownership
import Flannel.Traffic.Lifecycle
import Flannel.Traffic.Masquerade
import Flannel.Udp.Network
import Flannel.Udp.Proxy
import Flannel.Vxlan.Renewal
import Flannel.Wireguard.Mode
